import ConverterAssembly.Proofs.Ruby.Balance
import Mathlib.Data.Set.Card

/-!
# Openers and their closers

The nesting check and the printer keep a stack of open frames.  Here is what that stack stands for,
by the places of the roles alone: which opener a closer belongs to, and which openers enclose a
place.

**Places.**  A place stands directly inside an opener if the roles between them are balanced
(`Inside`), and there the opener can be closed or continued (`Matches`, `Continues`).  A place
stands directly inside one opener (`Inside.left_unique`) and an opener has one closer
(`Matches.right_unique`), since nothing inside balanced roles closes what is open around them
(`Balanced.exists_of_prefix`).

**Runs.**  What a run leaves open has been opened, and everything since is balanced
(`opens_of_runRoles`).  So where a run goes to the end, each closer and section has its opener
(`exists_opener_of_stepsBack`).

**Counting.**  The openers that enclose a place are as many as the frames that are open there
(`ncard_enclosing`), since each role changes both numbers alike (`ncard_enclosing_succ`).
-/

namespace ConverterAssembly.Ruby

/-! ## Places -/

/-- The place `j` stands directly inside the frame that is opened at the place `i`. -/
def Inside (roles : List Role) (frame : Frame) (i j : Nat) : Prop :=
  ∃ before inner after, roles = before ++ .opens frame :: (inner ++ after) ∧
    Balanced (some frame) inner ∧ i = before.length ∧ j = before.length + 1 + inner.length

/-- The opener at the place `i` is closed at the place `j`. -/
def Matches (roles : List Role) (i j : Nat) : Prop :=
  ∃ frame, Inside roles frame i j ∧ roles[j]? = some frame.closer

/-- The section keyword at the place `j` continues what is opened at the place `i`. -/
def Continues (roles : List Role) (i j : Nat) : Prop :=
  ∃ frame part, Inside roles frame i j ∧ frame.accepts part = true ∧
    roles[j]? = some (.continues part)

/-- The openers before the place `k` that are closed there or later. -/
def enclosing (roles : List Role) (k : Nat) : Set Nat :=
  {i | i < k ∧ ∃ j, k ≤ j ∧ Matches roles i j}

/-- Whether a role steps out of the innermost frame: its closer, or a section of it. -/
def Role.stepsBack : Role → Bool
  | closesBracket _ | closesBlock | continues _ => true
  | opens _ | neutral => false

lemma Frame.closer_ne_opens (frame opened : Frame) : frame.closer ≠ .opens opened := by
  cases frame <;> simp [closer]

/-! ## Prefixes -/

lemma runRoles_append_eq_ok_iff {frames frames' : List Frame} {a b : List Role} :
    runRoles frames (a ++ b) = .ok frames' ↔
      ∃ opened, runRoles frames a = .ok opened ∧ runRoles opened b = .ok frames' := by
  induction a generalizing frames with
  | nil => simp [runRoles]
  | cons role a ih =>
      rw [List.cons_append, runRoles, runRoles]
      cases role.apply frames with
      | ok opened => exact ih
      | error problem => simp

lemma runRoles_cons_eq_ok_iff {frames frames' : List Frame} {role : Role} {b : List Role} :
    runRoles frames (role :: b) = .ok frames' ↔
      ∃ opened, role.apply frames = .ok opened ∧ runRoles opened b = .ok frames' := by
  rw [runRoles]
  cases role.apply frames with
  | ok opened => simp
  | error problem => simp

/-- What stands directly inside a frame leaves it open. -/
lemma Balanced.runRoles_eq {frame : Frame} {inner : List Role} (h : Balanced (some frame) inner)
    (base : List Frame) : runRoles (frame :: base) inner = .ok (frame :: base) := by
  have hrun := h.runRoles_append base []
  rwa [List.append_nil] at hrun

/-- Inside balanced roles nothing closes what is open around them. -/
lemma Balanced.exists_of_prefix {around : Option Frame} {a b : List Role}
    (h : Balanced around (a ++ b)) (base : List Frame) :
    ∃ opened, runRoles (around.toList ++ base) a = .ok (opened ++ (around.toList ++ base)) := by
  generalize hroles : a ++ b = roles at h
  induction h generalizing a b base with
  | nil =>
      obtain ⟨rfl, -⟩ := List.append_eq_nil_iff.1 hroles
      exact ⟨[], rfl⟩
  | neutral tail ih =>
      cases a with
      | nil => exact ⟨[], rfl⟩
      | cons role a =>
          obtain ⟨rfl, htail⟩ := List.cons_eq_cons.1 hroles
          obtain ⟨opened, hrun⟩ := ih base htail
          exact ⟨opened, hrun⟩
  | @continues frame part rest accepted tail ih =>
      cases a with
      | nil => exact ⟨[], rfl⟩
      | cons role a =>
          obtain ⟨rfl, htail⟩ := List.cons_eq_cons.1 hroles
          rw [runRoles]
          simpa [Role.apply, accepted] using ih base htail
  | @encloses around frame inner rest inside tail ihInside ihTail =>
      cases a with
      | nil => exact ⟨[], rfl⟩
      | cons role a =>
          obtain ⟨rfl, hsplit⟩ := List.cons_eq_cons.1 hroles
          change ∃ opened, runRoles (frame :: (around.toList ++ base)) a = _
          rcases List.append_eq_append_iff.1 hsplit with ⟨y, hinner, -⟩ | ⟨y, rfl, hrest⟩
          · -- the prefix ends before the closer
            obtain ⟨opened, hrun⟩ := ihInside (around.toList ++ base) hinner.symm
            exact ⟨opened ++ [frame], by simpa using hrun⟩
          · have hinside := inside.runRoles_eq (around.toList ++ base)
            cases y with
            | nil =>
                rw [List.append_nil]
                exact ⟨[frame], hinside⟩
            | cons role y =>
                obtain ⟨rfl, htail⟩ := List.cons_eq_cons.1 hrest
                obtain ⟨opened, hrun⟩ := ihTail base htail.symm
                exact ⟨opened, runRoles_append_eq_ok_iff.2 ⟨_, hinside,
                  runRoles_cons_eq_ok_iff.2 ⟨_, frame.apply_closer _, hrun⟩⟩⟩

/-! ## One opener and one closer -/

/-- What stands directly inside a frame does not end with its closer. -/
lemma Balanced.not_closer {frame : Frame} {inner rest : List Role}
    (h : Balanced (some frame) inner) :
    ¬ Balanced (some frame) (inner ++ frame.closer :: rest) := by
  intro hlonger
  rw [← List.singleton_append, ← List.append_assoc] at hlonger
  obtain ⟨opened, hrun⟩ := hlonger.exists_of_prefix []
  have hclosed : runRoles [frame] (inner ++ [frame.closer]) = .ok [] :=
    runRoles_append_eq_ok_iff.2 ⟨_, h.runRoles_eq [],
      runRoles_cons_eq_ok_iff.2 ⟨_, frame.apply_closer [], rfl⟩⟩
  have hsame := Except.ok.inj (hclosed.symm.trans hrun)
  simp at hsame

/-- What stands directly inside a frame does not begin inside of another one that it leaves open. -/
lemma Balanced.not_opener {frame opened : Frame} {lead inner : List Role}
    (h : Balanced (some opened) inner) :
    ¬ Balanced (some frame) (lead ++ .opens opened :: inner) := by
  intro hlonger
  obtain ⟨frames, hrun⟩ := hlonger.exists_of_prefix []
  have hopen : runRoles [frame] (lead ++ .opens opened :: inner) =
      .ok (opened :: (frames ++ [frame])) :=
    runRoles_append_eq_ok_iff.2 ⟨_, hrun, runRoles_cons_eq_ok_iff.2 ⟨_, rfl, h.runRoles_eq _⟩⟩
  have hsame := Except.ok.inj ((hlonger.runRoles_eq []).symm.trans hopen)
  simp at hsame

lemma getElem?_inside (before inner after : List Role) (role : Role) :
    (before ++ role :: (inner ++ after))[before.length + 1 + inner.length]? = after.head? := by
  rw [Nat.add_assoc, List.getElem?_append_right (Nat.le_add_right _ _), Nat.add_sub_cancel_left,
    Nat.add_comm 1, List.getElem?_cons_succ, List.getElem?_append_right (Nat.le_refl _),
    Nat.sub_self, List.head?_eq_getElem?]

lemma matches_of_balanced {frame : Frame} {inner : List Role} (h : Balanced (some frame) inner)
    (before after : List Role) :
    Matches (before ++ .opens frame :: (inner ++ frame.closer :: after)) before.length
      (before.length + 1 + inner.length) :=
  ⟨frame, ⟨before, inner, _, rfl, h, rfl, rfl⟩, getElem?_inside before inner _ _⟩

section

variable {roles : List Role} {frame frame' : Frame} {i i' j j' : Nat}

lemma Inside.lt (h : Inside roles frame i j) : i < j := by
  obtain ⟨before, inner, after, -, -, rfl, rfl⟩ := h
  omega

lemma Inside.opens (h : Inside roles frame i j) : roles[i]? = some (.opens frame) := by
  obtain ⟨before, inner, after, rfl, -, rfl, -⟩ := h
  simp

lemma Matches.exists_inside (h : Matches roles i j) : ∃ frame, Inside roles frame i j :=
  h.imp fun _ => And.left

/-- A place stands directly inside one opener. -/
lemma Inside.left_unique (h : Inside roles frame i j) (h' : Inside roles frame' i' j) : i = i' := by
  wlog hle : i ≤ i' generalizing i i' frame frame'
  · exact (this h' h (Nat.le_of_not_le hle)).symm
  obtain ⟨before, inner, after, rfl, hinner, rfl, rfl⟩ := h
  obtain ⟨before', inner', after', hroles, hinner', rfl, hj⟩ := h'
  rcases List.append_eq_append_iff.1 hroles with ⟨y, rfl, hopen⟩ | ⟨y, rfl, -⟩
  · cases y with
    | nil => simp
    | cons role y =>
        -- the later opener would stand directly inside the earlier one
        exfalso
        obtain ⟨-, hrest⟩ := List.cons_eq_cons.1 hopen
        have hsplit : inner ++ after = (y ++ .opens frame' :: inner') ++ after' := by
          rw [hrest]
          simp
        have hlength : inner.length = (y ++ .opens frame' :: inner').length := by
          simp only [List.length_append, List.length_cons] at hj ⊢
          omega
        obtain ⟨rfl, -⟩ := List.append_inj hsplit hlength
        exact hinner'.not_opener hinner
  · rw [List.length_append] at hle ⊢
    omega

/-- An opener has one closer. -/
lemma Matches.right_unique (h : Matches roles i j) (h' : Matches roles i j') : j = j' := by
  wlog hle : j ≤ j' generalizing j j'
  · exact (this h' h (Nat.le_of_not_le hle)).symm
  obtain ⟨frame, ⟨before, inner, after, rfl, hinner, rfl, rfl⟩, hcloser⟩ := h
  obtain ⟨frame', ⟨before', inner', after', hroles, hinner', hi, rfl⟩, -⟩ := h'
  obtain ⟨rfl, htail⟩ := List.append_inj hroles hi
  obtain ⟨hframe, hrest⟩ := List.cons_eq_cons.1 htail
  obtain rfl := Role.opens.inj hframe
  rw [getElem?_inside] at hcloser
  rcases List.append_eq_append_iff.1 hrest with ⟨y, rfl, rfl⟩ | ⟨y, rfl, -⟩
  · cases y with
    | nil => simp
    | cons role y =>
        obtain rfl := Option.some.inj hcloser
        exact absurd hinner' hinner.not_closer
  · rw [List.length_append] at hle ⊢
    omega

end

/-! ## Runs -/

/-- Roles that open the given frames, innermost first, with balanced roles after each opener. -/
def Opens : List Frame → List Role → Prop
  | [], roles => Balanced none roles
  | frame :: frames, roles =>
    ∃ outer inner, roles = outer ++ .opens frame :: inner ∧ Balanced (some frame) inner ∧
      Opens frames outer

/-- Balanced roles can stand after what opens the frames. -/
lemma Opens.append {frames : List Frame} {a b : List Role} (ha : Opens frames a)
    (hb : Balanced frames.head? b) : Opens frames (a ++ b) := by
  cases frames with
  | nil => exact Balanced.append ha hb
  | cons frame frames =>
      obtain ⟨outer, inner, rfl, hinner, houter⟩ := ha
      exact ⟨outer, inner ++ b, by simp, hinner.append hb, houter⟩

lemma opens_of_runRoles {frames : List Frame} {roles : List Role}
    (h : runRoles [] roles = .ok frames) : Opens frames roles := by
  induction roles using List.reverseRecOn generalizing frames with
  | nil =>
      obtain rfl := Except.ok.inj h
      exact .nil
  | append_singleton roles role ih =>
      obtain ⟨mid, hmid, hrole⟩ := runRoles_append_eq_ok_iff.1 h
      obtain ⟨frames', happly, hframes⟩ := runRoles_cons_eq_ok_iff.1 hrole
      obtain rfl := Except.ok.inj hframes
      have hopens := ih hmid
      obtain ⟨frame, rfl, rfl⟩ | ⟨frame, rfl, rfl⟩ | ⟨frame, part, rfl, hframe, haccepts, rfl⟩ |
        ⟨rfl, rfl⟩ := Role.apply_cases happly
      · exact ⟨roles, [], rfl, .nil, hopens⟩
      · obtain ⟨outer, inner, rfl, hinner, houter⟩ := hopens
        rw [List.append_assoc, List.cons_append]
        exact houter.append (.encloses hinner .nil)
      · refine hopens.append ?_
        rw [hframe]
        exact .continues haccepts .nil
      · exact hopens.append (.neutral .nil)

/-- What follows roles stands directly inside the innermost frame that is open after them. -/
lemma exists_inside_of_run {frame : Frame} {frames : List Frame} {roles : List Role}
    (h : runRoles [] roles = .ok (frame :: frames)) (rest : List Role) :
    ∃ i, Inside (roles ++ rest) frame i roles.length ∧
      ∃ outer, outer <+: roles ∧ i = outer.length ∧ runRoles [] outer = .ok frames := by
  obtain ⟨outer, inner, rfl, hinner, -⟩ := opens_of_runRoles h
  obtain ⟨opened, houter, hrest⟩ := runRoles_append_eq_ok_iff.1 h
  obtain ⟨frames', happly, hrun⟩ := runRoles_cons_eq_ok_iff.1 hrest
  obtain rfl := Except.ok.inj happly
  rw [hinner.runRoles_eq] at hrun
  obtain ⟨-, rfl⟩ := List.cons_eq_cons.1 (Except.ok.inj hrun)
  have hlength : (outer ++ .opens frame :: inner).length = outer.length + 1 + inner.length := by
    rw [List.length_append, List.length_cons]
    omega
  exact ⟨outer.length, ⟨outer, inner, rest, by simp, hinner, rfl, hlength⟩, outer,
    List.prefix_append _ _, rfl, houter⟩

/-! ## Counting -/

section

variable {roles : List Role} {k : Nat}

lemma enclosing_finite : (enclosing roles k).Finite :=
  (Set.finite_lt_nat k).subset fun _ h => h.1

/-- After an opener it encloses too. -/
lemma enclosing_succ_of_opens {j : Nat} (hmatch : Matches roles k j) :
    enclosing roles (k + 1) = insert k (enclosing roles k) := by
  obtain ⟨opened, hinside⟩ := hmatch.exists_inside
  ext i
  constructor
  · rintro ⟨hi, j', hj', h⟩
    rcases Nat.lt_succ_iff_lt_or_eq.1 hi with hlt | rfl
    · exact .inr ⟨hlt, j', Nat.le_of_succ_le hj', h⟩
    · exact .inl rfl
  · rintro (rfl | ⟨hi, j', hj', h⟩)
    · exact ⟨Nat.lt_succ_self i, j, hinside.lt, hmatch⟩
    · refine ⟨Nat.lt_succ_of_lt hi, j', Nat.lt_of_le_of_ne hj' ?_, h⟩
      rintro rfl
      obtain ⟨closed, -, hcloser⟩ := h
      exact closed.closer_ne_opens opened (Option.some.inj (hcloser.symm.trans hinside.opens))

/-- After any other role no more openers enclose than before it. -/
lemma mem_enclosing_of_succ {role : Role} (hk : roles[k]? = some role)
    (hopens : ∀ frame, role ≠ .opens frame) {i j : Nat} (hi : i < k + 1) (hj : k + 1 ≤ j)
    (h : Matches roles i j) : i ∈ enclosing roles k := by
  obtain ⟨frame, hinside⟩ := h.exists_inside
  have hne : i ≠ k := by
    rintro rfl
    exact hopens frame (Option.some.inj (hk.symm.trans hinside.opens))
  exact ⟨Nat.lt_of_le_of_ne (Nat.le_of_lt_succ hi) hne, j, Nat.le_of_succ_le hj, h⟩

/-- After a closer its opener encloses no longer. -/
lemma enclosing_succ_of_closes {i : Nat} (hmatch : Matches roles i k) :
    enclosing roles (k + 1) = enclosing roles k \ {i} := by
  obtain ⟨closed, hinside, hcloser⟩ := hmatch
  ext i'
  constructor
  · rintro ⟨hi, j, hj, h⟩
    refine ⟨mem_enclosing_of_succ hcloser closed.closer_ne_opens hi hj h, ?_⟩
    rintro rfl
    exact Nat.ne_of_lt hj (Matches.right_unique ⟨closed, hinside, hcloser⟩ h)
  · rintro ⟨⟨hi, j, hj, h⟩, hne⟩
    refine ⟨Nat.lt_succ_of_lt hi, j, Nat.lt_of_le_of_ne hj ?_, h⟩
    rintro rfl
    obtain ⟨frame, hinside'⟩ := h.exists_inside
    exact hne (hinside'.left_unique hinside)

/-- Other roles change nothing. -/
lemma enclosing_succ_of_other {role : Role} (hk : roles[k]? = some role)
    (hopens : ∀ frame, role ≠ .opens frame) (hcloses : ∀ frame : Frame, role ≠ frame.closer) :
    enclosing roles (k + 1) = enclosing roles k := by
  ext i
  constructor
  · rintro ⟨hi, j, hj, h⟩
    exact mem_enclosing_of_succ hk hopens hi hj h
  · rintro ⟨hi, j, hj, h⟩
    refine ⟨Nat.lt_succ_of_lt hi, j, Nat.lt_of_le_of_ne hj ?_, h⟩
    rintro rfl
    obtain ⟨frame, -, hframe⟩ := h
    exact hcloses frame (Option.some.inj (hk.symm.trans hframe))

end

/-- One role changes the number of enclosing openers as it changes the number of open frames. -/
lemma ncard_enclosing_succ {a b : List Role} {role : Role} {frames frames' : List Frame}
    (h : runRoles [] (a ++ role :: b) = .ok []) (ha : runRoles [] a = .ok frames)
    (happly : role.apply frames = .ok frames')
    (hcount : (enclosing (a ++ role :: b) a.length).ncard = frames.length) :
    (enclosing (a ++ role :: b) (a.length + 1)).ncard = frames'.length := by
  have hk : (a ++ role :: b)[a.length]? = some role := by simp
  have hother : (∀ frame, role ≠ .opens frame) → (∀ frame : Frame, role ≠ frame.closer) →
      (enclosing (a ++ role :: b) (a.length + 1)).ncard = frames.length := by
    intro hopens hcloses
    rw [enclosing_succ_of_other hk hopens hcloses, hcount]
  obtain ⟨frame, rfl, rfl⟩ | ⟨frame, rfl, rfl⟩ | ⟨frame, part, rfl, -, -, rfl⟩ | ⟨rfl, rfl⟩ :=
    Role.apply_cases happly
  · have hrest : runRoles (frame :: frames) b = .ok [] := by
      obtain ⟨opened, hopened, hrun⟩ := runRoles_append_eq_ok_iff.1 h
      obtain rfl := Except.ok.inj (ha.symm.trans hopened)
      exact hrun
    obtain ⟨inner, rest, rfl, hinner, -⟩ := closes_of_runRoles hrest
    have hnew : a.length ∉ enclosing (a ++ .opens frame :: (inner ++ frame.closer :: rest))
        a.length :=
      fun hmem => Nat.lt_irrefl _ hmem.1
    rw [enclosing_succ_of_opens (matches_of_balanced hinner a rest),
      Set.ncard_insert_of_notMem hnew enclosing_finite, hcount, List.length_cons]
  · obtain ⟨i, hinside, -⟩ := exists_inside_of_run ha (frame.closer :: b)
    have hmatch : Matches (a ++ frame.closer :: b) i a.length := ⟨frame, hinside, hk⟩
    have hmem : i ∈ enclosing (a ++ frame.closer :: b) a.length :=
      ⟨hinside.lt, a.length, Nat.le_refl _, hmatch⟩
    rw [enclosing_succ_of_closes hmatch, Set.ncard_sdiff_singleton_of_mem hmem, hcount,
      List.length_cons, Nat.add_sub_cancel]
  · refine hother (fun opened => Role.noConfusion) fun closed => ?_
    cases closed <;> exact Role.noConfusion
  · refine hother (fun opened => Role.noConfusion) fun closed => ?_
    cases closed <;> exact Role.noConfusion

/-- The openers that enclose a place are as many as the frames that are open there. -/
theorem ncard_enclosing {a b : List Role} {frames : List Frame} (h : runRoles [] (a ++ b) = .ok [])
    (ha : runRoles [] a = .ok frames) : (enclosing (a ++ b) a.length).ncard = frames.length := by
  induction a using List.reverseRecOn generalizing b frames with
  | nil =>
      obtain rfl := Except.ok.inj ha
      have hnone : enclosing ([] ++ b) 0 = ∅ := by
        ext i
        simp [enclosing]
      rw [List.length_nil, hnone, Set.ncard_empty, List.length_nil]
  | append_singleton a role ih =>
      obtain ⟨mid, hmid, hrole⟩ := runRoles_append_eq_ok_iff.1 ha
      obtain ⟨frames', happly, hframes⟩ := runRoles_cons_eq_ok_iff.1 hrole
      obtain rfl := Except.ok.inj hframes
      rw [List.append_assoc, List.singleton_append] at h ⊢
      rw [List.length_append, List.length_singleton]
      exact ncard_enclosing_succ h hmid happly (ih h hmid)

/-- Where all frames are closed at the end, each closer and each section has an opener, which
encloses it, and one frame less is open in front of the opener. -/
theorem exists_opener_of_stepsBack {a b : List Role} {role : Role}
    (h : runRoles [] (a ++ role :: b) = .ok []) (hrole : role.stepsBack = true) :
    ∃ i frame frames, (Matches (a ++ role :: b) i a.length ∨
      Continues (a ++ role :: b) i a.length) ∧
      runRoles [] a = .ok (frame :: frames) ∧
      (enclosing (a ++ role :: b) i).ncard = frames.length := by
  obtain ⟨mid, hmid, hrest⟩ := runRoles_append_eq_ok_iff.1 h
  obtain ⟨opened, happly, -⟩ := runRoles_cons_eq_ok_iff.1 hrest
  have hk : (a ++ role :: b)[a.length]? = some role := by simp
  have hopen : ∀ {frame frames}, mid = frame :: frames →
      ∃ i, Inside (a ++ role :: b) frame i a.length ∧
      (enclosing (a ++ role :: b) i).ncard = frames.length := by
    rintro frame frames rfl
    obtain ⟨i, hinside, outer, ⟨inner, rfl⟩, rfl, houter⟩ := exists_inside_of_run hmid (role :: b)
    refine ⟨outer.length, hinside, ?_⟩
    rw [List.append_assoc] at h ⊢
    exact ncard_enclosing h houter
  obtain ⟨frame, rfl, -⟩ | ⟨frame, rfl, rfl⟩ | ⟨frame, part, rfl, hframe, haccepts, rfl⟩ |
      ⟨rfl, -⟩ := Role.apply_cases happly
  · cases hrole
  · obtain ⟨i, hinside, hcount⟩ := hopen rfl
    exact ⟨i, frame, opened, .inl ⟨frame, hinside, hk⟩, hmid, hcount⟩
  · obtain ⟨frames, rfl⟩ := List.head?_eq_some_iff.1 hframe
    obtain ⟨i, hinside, hcount⟩ := hopen rfl
    exact ⟨i, frame, frames, .inr ⟨frame, part, hinside, haccepts, hk⟩, hmid, hcount⟩
  · cases hrole

end ConverterAssembly.Ruby
