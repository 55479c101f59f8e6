import ConverterAssembly.Text.Basic

/-!
# Lines

A line is a run of characters up to and including its line feed; only the last line of a text may
lack one, and no line is empty.  `indent` shifts every line that holds more than its line feed.
-/

namespace ConverterAssembly

namespace Text

/-- The lines of a text, each with its line feed. -/
def lines : Text → List Text
  | [] => []
  | c :: cs =>
    if c = '\n' then
      ['\n'] :: lines cs
    else
      match lines cs with
      | [] => [[c]]
      | line :: rest => (c :: line) :: rest

/-- The lines put one after another give the text. -/
@[simp]
theorem flatten_lines (text : Text) : (lines text).flatten = text := by
  induction text with
  | nil => rfl
  | cons c cs ih =>
    rw [lines]
    split
    · next h => simp [h, ih]
    · split
      · next h =>
        rw [h] at ih
        simp [← ih]
      · next line rest h =>
        rw [h] at ih
        simp [← ih]

/-- The text with `width` spaces put before every line that is not empty. -/
def indent (text : Text) (width : Nat) : Text :=
  (lines text).flatMap fun line =>
    if line = ['\n'] then line else List.replicate width ' ' ++ line

end Text

end ConverterAssembly
