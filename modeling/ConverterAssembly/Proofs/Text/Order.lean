import ConverterAssembly.Text.Basic
import Mathlib.Data.Char
import Mathlib.Data.List.Lex
import Mathlib.Tactic

/-!
# The order of texts

`Text.before` compares code points, and the UTF-8 form keeps this order: of two texts the one that
comes first by code points comes first by bytes.  It is the strict part of the linear order of
lists of characters, so the lemmas about that order apply to it.
-/

namespace ConverterAssembly.Text

lemma before_iff_lt {a b : Text} : before a b = true ↔ a < b := by
  fun_induction before a b with
  | case1 => simp
  | case2 => simp
  | case3 => simp
  | case4 c a d b ih =>
      rw [List.cons_lt_cons_iff, ← ih]
      simp [Char.lt_def]

lemma before_eq_false_iff_le {a b : Text} : before a b = false ↔ b ≤ a := by
  rw [← Bool.not_eq_true, before_iff_lt]
  exact not_lt

end ConverterAssembly.Text
