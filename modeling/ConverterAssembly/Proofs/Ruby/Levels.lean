import ConverterAssembly.Proofs.Ruby.Balance
import ConverterAssembly.Ruby.Layout

/-!
# Levels and open frames

The printer counts levels on its own and never below zero.  Where the roles of tokens fit one
another, its count is the number of frames that are open, so that nothing is cut off at zero
(`heightAfter_of_runRoles`), and what is open around all of them adds the same to the height and to
the level of every line (`levelFrom_of_runRoles`).
-/

namespace ConverterAssembly.Ruby

/-- What fits moves the height with the frames, whatever is open below. -/
lemma Role.heightAfter_of_apply {role : Role} {frames frames' : List Frame}
    (h : role.apply frames = .ok frames') (below : Nat) :
    role.heightAfter (frames.length + below) = frames'.length + below := by
  obtain ⟨frame, rfl, rfl⟩ | ⟨frame, rfl, rfl⟩ | ⟨frame, part, rfl, hframe, haccepts, rfl⟩ |
    ⟨rfl, rfl⟩ := Role.apply_cases h
  · rw [heightAfter, List.length_cons]
    omega
  · cases frame <;> simp only [Frame.closer, heightAfter, List.length_cons] <;> omega
  · rfl
  · rfl

/-- The height after tokens that fit is the number of frames left open. -/
lemma heightAfter_of_runRoles {frames frames' : List Frame} {tokens : List (Token × Role)}
    (h : runRoles frames (tokens.map (·.2)) = .ok frames') (below : Nat) :
    heightAfter (frames.length + below) tokens = frames'.length + below := by
  induction tokens generalizing frames with
  | nil =>
      obtain rfl := Except.ok.inj h
      rfl
  | cons t tokens ih =>
      rw [List.map_cons, runRoles] at h
      cases happly : t.2.apply frames with
      | error problem => simp [happly] at h
      | ok opened =>
          rw [happly] at h
          rw [heightAfter, List.foldl_cons, Role.heightAfter_of_apply happly]
          exact ih h

/-- Comments and blanks open and close nothing. -/
def TriviaNeutral (tokens : List (Token × Role)) : Prop :=
  ∀ t ∈ tokens, t.1.isTrivia = true → t.2 = .neutral

/-- The level of a line goes up by what is open around it. -/
lemma levelFrom_of_runRoles {frames frames' : List Frame} {tokens : List (Token × Role)}
    (h : runRoles frames (tokens.map (·.2)) = .ok frames') (hneutral : TriviaNeutral tokens)
    (level below : Nat) :
    levelFrom (level + below) (frames.length + below) tokens =
      levelFrom level frames.length tokens + below := by
  induction tokens generalizing frames level with
  | nil => rfl
  | cons t tokens ih =>
      obtain ⟨token, role⟩ := t
      obtain ⟨ht, htokens⟩ := List.forall_mem_cons.1 hneutral
      rw [List.map_cons, runRoles] at h
      cases happly : role.apply frames with
      | error problem => simp [happly] at h
      | ok opened =>
          rw [happly] at h
          simp only [levelFrom]
          by_cases htrivia : token.isTrivia = true
          · rw [show role = .neutral from ht htrivia] at happly
            obtain rfl := Except.ok.inj happly
            rw [if_pos htrivia, if_pos htrivia]
            exact ih h htokens level
          · rw [if_neg htrivia, if_neg htrivia]
            obtain ⟨frame, rfl, rfl⟩ | ⟨frame, rfl, rfl⟩ | ⟨frame, part, rfl, hframe, -, rfl⟩ |
              ⟨rfl, rfl⟩ := Role.apply_cases happly
            · rfl
            · have hclosed : levelFrom ((frame :: opened).length + below - 1)
                  ((frame :: opened).length + below - 1) tokens =
                    levelFrom ((frame :: opened).length - 1) ((frame :: opened).length - 1) tokens +
                      below := by
                have hheight : (frame :: opened).length + below - 1 = opened.length + below := by
                  rw [List.length_cons]
                  omega
                rw [hheight, List.length_cons, Nat.add_sub_cancel]
                exact ih h htokens opened.length
              cases frame <;> exact hclosed
            · have hheight : opened.length + below - 1 = opened.length - 1 + below := by
                have := List.length_pos_of_mem (List.mem_of_mem_head? hframe)
                omega
              dsimp only
              rw [hheight]
              exact ih h htokens (opened.length - 1)
            · rfl

end ConverterAssembly.Ruby
