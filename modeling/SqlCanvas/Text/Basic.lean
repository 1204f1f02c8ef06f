/-!
# Text

A text is a list of characters. This module has the cutting operations that everything else uses:
trimming blanks from the ends, taking a stretch between two positions, and replacing runs of blanks
by one space. Blanks are the characters that Unicode lists as white space together with the four
separators U+001C to U+001F.
-/

namespace SqlCanvas

abbrev Text := List Char

namespace Text

def isBlank (c : Char) : Bool :=
  let n := c.toNat
  (9 ≤ n && n ≤ 13) || (28 ≤ n && n ≤ 32) || n == 0x85 || n == 0xA0 || n == 0x1680 ||
    (0x2000 ≤ n && n ≤ 0x200A) || n == 0x2028 || n == 0x2029 || n == 0x202F || n == 0x205F ||
    n == 0x3000

/-- The text without the longest end whose characters all satisfy `drop`. -/
def dropEndWhile (drop : Char → Bool) (t : Text) : Text :=
  (t.reverse.dropWhile drop).reverse

def trimStart (t : Text) : Text :=
  t.dropWhile isBlank

def trimEnd (t : Text) : Text :=
  t.dropEndWhile isBlank

def trim (t : Text) : Text :=
  t.trimStart.trimEnd

theorem length_dropWhile_le (p : Char → Bool) (t : Text) : (t.dropWhile p).length ≤ t.length :=
  (List.dropWhile_sublist p).length_le

theorem length_dropEndWhile_le (p : Char → Bool) (t : Text) :
    (t.dropEndWhile p).length ≤ t.length := by
  simpa [dropEndWhile] using length_dropWhile_le p t.reverse

theorem length_trim_le (t : Text) : t.trim.length ≤ t.length :=
  Nat.le_trans (length_dropEndWhile_le _ _) (length_dropWhile_le _ _)

/-- The characters at the positions from `start` up to, not including, `stop`. -/
def slice (t : Text) (start stop : Nat) : Text :=
  (t.drop start).take (stop - start)

theorem length_slice_le (t : Text) (start stop : Nat) :
    (t.slice start stop).length ≤ t.length - start := by
  simp only [slice, List.length_take, List.length_drop]
  omega

/-- The words of a text: its longest stretches without blanks. -/
def words : Text → List Text
  | [] => []
  | c :: rest =>
    if isBlank c then words rest
    else
      match rest with
      | [] => [[c]]
      | d :: _ =>
        if isBlank d then [c] :: words rest
        else
          match words rest with
          | [] => [[c]]
          | w :: ws => (c :: w) :: ws

/-- Each run of blanks becomes one space, and none is left at the ends. -/
def collapseBlanks (t : Text) : Text :=
  [' '].intercalate t.words

/-- The parts between the occurrences of `separator`, which are left out. -/
def splitOn (separator : Char) : Text → List Text
  | [] => [[]]
  | c :: rest =>
    if c = separator then [] :: splitOn separator rest
    else
      match splitOn separator rest with
      | [] => [[c]]
      | part :: parts => (c :: part) :: parts

/-- The parts before the first and after the first occurrence of `separator`, if there is one. -/
def cutAtFirst? (separator : Char) : Text → Option (Text × Text)
  | [] => none
  | c :: rest =>
    if c = separator then some ([], rest)
    else (cutAtFirst? separator rest).map fun (head, tail) => (c :: head, tail)

/-- The parts before the last and after the last occurrence of `separator`, if there is one. -/
def cutAtLast? (separator : Char) : Text → Option (Text × Text)
  | [] => none
  | c :: rest =>
    match cutAtLast? separator rest with
    | some (head, tail) => some (c :: head, tail)
    | none => if c = separator then some ([], rest) else none

/-- Whether `part` occurs somewhere in the text. -/
def hasInfix (part : Text) : Text → Bool
  | [] => part.isEmpty
  | c :: rest => part.isPrefixOf (c :: rest) || hasInfix part rest

end Text

end SqlCanvas
