/-!
# Texts

A text is a list of characters (Unicode scalar values).  Working on the list keeps every reader and
printer of the library a recursion on data, and cuts always fall between characters.

This module holds the type and the operations on fixed parts of a text:

* **Parts** — `dropStart?` and `dropEnd?` remove a given beginning or ending.
* **Replacement** — `replace` and `replaceFirst` put one text in place of another.
* **Pieces** — `splitOn` cuts at a separator, `join` puts a separator between texts.
* **Size** — `utf8Size` counts the bytes of the UTF-8 form.
-/

namespace ConverterAssembly

/-- A text: its characters in order. -/
abbrev Text := List Char

namespace Text

/-- Number of bytes of the UTF-8 form. -/
def utf8Size : Text → Nat
  | [] => 0
  | c :: cs => c.utf8Size + utf8Size cs

@[simp]
theorem utf8Size_nil : utf8Size [] = 0 := rfl

@[simp]
theorem utf8Size_cons (c : Char) (cs : Text) : utf8Size (c :: cs) = c.utf8Size + utf8Size cs := rfl

@[simp]
theorem utf8Size_append (a b : Text) : utf8Size (a ++ b) = utf8Size a + utf8Size b := by
  induction a with
  | nil => simp
  | cons c a ih => simp [ih, Nat.add_assoc]

/-- The text after `start`, if it begins with `start`. -/
def dropStart? : (start : Text) → Text → Option Text
  | [], text => some text
  | _ :: _, [] => none
  | s :: start, c :: text => if s = c then dropStart? start text else none

/-- What `dropStart?` leaves is exactly what follows `start`. -/
theorem dropStart?_eq_some_iff {start text rest : Text} :
    dropStart? start text = some rest ↔ text = start ++ rest := by
  induction start generalizing text with
  | nil => simp [dropStart?]
  | cons s start ih =>
    cases text with
    | nil => simp [dropStart?]
    | cons c text =>
      by_cases h : s = c
      · subst h
        simp [dropStart?, ih]
      · have hc : c ≠ s := fun e => h e.symm
        simp [dropStart?, h, hc]

/-- The text before `ending`, if it ends with `ending`. -/
def dropEnd? (ending text : Text) : Option Text :=
  (dropStart? ending.reverse text.reverse).map List.reverse

/-- What `dropEnd?` leaves is exactly what comes before `ending`. -/
theorem dropEnd?_eq_some_iff {ending text rest : Text} :
    dropEnd? ending text = some rest ↔ text = rest ++ ending := by
  rw [dropEnd?, Option.map_eq_some_iff]
  constructor
  · rintro ⟨before, h, rfl⟩
    have := congrArg List.reverse (dropStart?_eq_some_iff.1 h)
    simpa using this
  · rintro rfl
    exact ⟨rest.reverse, dropStart?_eq_some_iff.2 (by simp), by simp⟩

/-- Whether the text begins with `start`. -/
def startsWith (text start : Text) : Bool :=
  (dropStart? start text).isSome

theorem startsWith_iff {text start : Text} : startsWith text start = true ↔ start <+: text := by
  rw [startsWith, Option.isSome_iff_exists]
  constructor
  · rintro ⟨rest, h⟩
    exact ⟨rest, (dropStart?_eq_some_iff.1 h).symm⟩
  · rintro ⟨rest, h⟩
    exact ⟨rest, dropStart?_eq_some_iff.2 h.symm⟩

/-- Whether the text ends with `ending`. -/
def endsWith (text ending : Text) : Bool :=
  (dropEnd? ending text).isSome

/-- The first of `candidates` that the text begins with. -/
def findStart? (candidates : List Text) (text : Text) : Option Text :=
  candidates.find? (startsWith text)

/-- The pieces between the occurrences of a separator, read from the left; `skip` characters of the
last separator are still to be passed over, and `piece` holds the current piece in reverse. -/
def splitOnFrom (separator : Text) : (skip : Nat) → (piece : Text) → Text → List Text
  | _, piece, [] => [piece.reverse]
  | skip + 1, piece, _ :: cs => splitOnFrom separator skip piece cs
  | 0, piece, c :: cs =>
    if startsWith (c :: cs) separator then
      piece.reverse :: splitOnFrom separator (separator.length - 1) [] cs
    else
      splitOnFrom separator 0 (c :: piece) cs

/-- The pieces between the occurrences of a non-empty separator; there is always at least one. -/
def splitOn (separator text : Text) : List Text :=
  splitOnFrom separator 0 [] text

/-- The texts one after another with a separator between neighbours. -/
def join (separator : Text) (texts : List Text) : Text :=
  (texts.intersperse separator).flatten

/-- Every occurrence of the non-empty `pattern`, read from the left, becomes `substitute`. -/
def replace (pattern substitute text : Text) : Text :=
  join substitute (splitOn pattern text)

/-- The first occurrence of `pattern` becomes `substitute`; the empty pattern occurs at the start.
-/
def replaceFirst (pattern substitute : Text) : Text → Text
  | [] => if pattern.isEmpty then substitute else []
  | c :: cs =>
    match dropStart? pattern (c :: cs) with
    | some rest => substitute ++ rest
    | none => c :: replaceFirst pattern substitute cs

/-- Whether `pattern` occurs in the text. -/
def contains (pattern : Text) : Text → Bool
  | [] => pattern.isEmpty
  | c :: cs => startsWith (c :: cs) pattern || contains pattern cs

/-- `count` copies of the text, one after another. -/
def times (count : Nat) (text : Text) : Text :=
  (List.replicate count text).flatten

/-- Strict order by code points, first difference first; a proper beginning comes before the longer
text.  The UTF-8 form keeps this order, so it is also the order by bytes. -/
def before : Text → Text → Bool
  | [], [] => false
  | [], _ :: _ => true
  | _ :: _, [] => false
  | a :: as, b :: bs => a.val < b.val || (a = b && before as bs)

end Text

/-- The decimal digits of a number. -/
def decimal (n : Nat) : Text :=
  Nat.toDigits 10 n

end ConverterAssembly
