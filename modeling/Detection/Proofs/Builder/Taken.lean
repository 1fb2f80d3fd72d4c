import Detection.Builder
import Detection.Proofs.Excess

/-! # The calls a builder takes

A call that comes in its place, with names that are free, adds its pairs behind those that are there.
It stops short at a text that cannot be made.
-/

namespace Detection

theorem Phase.mem_all (p : Phase) : p ∈ Phase.all := by cases p <;> decide

theorem Phase.rank_inj {p q : Phase} (h : p.rank = q.rank) : p = q := by
  cases p <;> cases q <;> first | rfl | cases h

theorem Phase.rank_succ {p q r : Phase} (h : p.rank + 1 = q.rank) (hr : r.rank + 1 = q.rank) :
    p = r :=
  Phase.rank_inj (by omega)

theorem Phase.rank_le_kind (p : Phase) : p.rank ≤ Phase.kind.rank := by cases p <;> decide

namespace Builder

/-! ## Calls and their pairs -/

/-- The pairs before the first text that cannot be made. -/
def made : List Attempt → List Pair
  | (name, .ok text) :: rest => (name, text) :: made rest
  | _ => []

def obstacle? : List Attempt → Option Excess
  | [] => none
  | (_, .ok _) :: rest => obstacle? rest
  | (_, .error cause) :: _ => some cause

def Call.phase? : Call → Option Phase
  | .lead _ _ _ => some .lead
  | .originator _ => some .originator
  | .responder _ => some .responder
  | .proto _ => some .proto
  | .field _ _ _ => some .kind
  | .build => none

def Call.attempts (room : Option Nat) : Call → List Attempt
  | .lead name value absent | .field name value absent => [(name, text room value absent)]
  | .originator side => (sideAttempts? room "orig" side).getD []
  | .responder side => (sideAttempts? room "resp" side).getD []
  | .proto value => [("proto", value.format room)]
  | .build => []

/-- The pairs a call does add when it comes in its place. -/
def Call.pairs (room : Option Nat) (c : Call) : List Pair := made (c.attempts room)

def Call.obstacle? (room : Option Nat) (c : Call) : Option Excess :=
  Builder.obstacle? (c.attempts room)

def answer {α : Type} (x : α) : Option Excess → Except Refusal α
  | none => .ok x
  | some cause => .error (.unmade cause)

@[simp] theorem map_answer {α β : Type} (f : α → β) (x : α) (o : Option Excess) :
    (answer x o).map f = answer (f x) o := by
  cases o <;> rfl

def Enters (b : Builder) : Call → Prop
  | .lead name _ _ => b.phase = .lead ∧ name ∉ canonicalNames ∧ name ∉ b.names
  | .originator side => b.phase = .lead ∧ (sideAttempts? b.room "orig" side).isSome
  | .responder side => b.phase = .originator ∧ (sideAttempts? b.room "resp" side).isSome
  | .proto _ => b.phase = .responder
  | .field name _ _ =>
    Phase.proto.rank ≤ b.phase.rank ∧ name ∉ canonicalNames ∧ name ∉ b.names
  | .build => False

theorem Enters.exists_phase {b : Builder} {c : Call} (h : Enters b c) :
    ∃ p, c.phase? = some p := by
  cases c with
  | build => cases h
  | _ => exact ⟨_, rfl⟩

/-! ## What is made -/

theorem names_made_prefix (as : List Attempt) : (made as).map Prod.fst <+: as.map Prod.fst := by
  induction as with
  | nil => exact List.nil_prefix
  | cons a as ih =>
    obtain ⟨name, text | cause⟩ := a
    · exact List.nil_prefix
    · exact List.cons_prefix_cons.mpr ⟨rfl, ih⟩

theorem names_made {as : List Attempt} (h : obstacle? as = none) :
    (made as).map Prod.fst = as.map Prod.fst := by
  induction as with
  | nil => rfl
  | cons a as ih =>
    obtain ⟨name, text | cause⟩ := a
    · cases h
    · exact congrArg (name :: ·) (ih h)

theorem length_made_lt {as : List Attempt} {cause : Excess} (h : obstacle? as = some cause) :
    (made as).length < as.length := by
  induction as with
  | nil => cases h
  | cons a as ih =>
    obtain ⟨name, text | cause⟩ := a
    · exact Nat.succ_pos _
    · exact Nat.succ_lt_succ (ih h)

def sure (ps : List Pair) : List Attempt := ps.map fun p => (p.1, .ok p.2)

@[simp] theorem made_sure (ps : List Pair) : made (sure ps) = ps := by
  induction ps with
  | nil => rfl
  | cons p ps ih => exact congrArg (p :: ·) ih

@[simp] theorem obstacle?_sure (ps : List Pair) : obstacle? (sure ps) = none := by
  induction ps with
  | nil => rfl
  | cons p ps ih => exact ih

@[simp] theorem map_fst_sure (ps : List Pair) : (sure ps).map Prod.fst = ps.map Prod.fst := by
  simp [sure]

/-! ## Appending -/

def extend (b : Builder) (p : Phase) (ps : List Pair) : Builder :=
  { b with phase := p, pairs := b.pairs ++ ps, names := b.names ++ ps.map Prod.fst }

@[simp] theorem extend_room (b : Builder) (p : Phase) (ps : List Pair) :
    (b.extend p ps).room = b.room := rfl

@[simp] theorem extend_phase (b : Builder) (p : Phase) (ps : List Pair) :
    (b.extend p ps).phase = p := rfl

@[simp] theorem extend_nil (b : Builder) : b.extend b.phase [] = b := by simp [extend]

theorem append_fresh (b : Builder) {name : String} (text : String) (h : name ∉ b.names) :
    b.append name text = (b.extend b.phase [(name, text)], .ok ()) := by
  simp [append, extend, h]

theorem appendMade_fresh (b : Builder) {a : Attempt} (hname : a.1 ∉ b.names) :
    b.appendMade a = (b.extend b.phase (made [a]), answer () (obstacle? [a])) := by
  obtain ⟨name, cause | text⟩ := a
  · simp [appendMade, made, obstacle?, answer]
  · exact append_fresh b text hname

theorem appendAll_fresh (b : Builder) (as : List Attempt)
    (h : (b.names ++ as.map Prod.fst).Nodup) :
    b.appendAll as = (b.extend b.phase (made as), answer () (obstacle? as)) := by
  induction as generalizing b with
  | nil => simp [appendAll, made, obstacle?, answer]
  | cons a as ih =>
    obtain ⟨name, cause | text⟩ := a
    · simp [appendAll, appendMade, made, obstacle?, answer]
    · have hname : name ∉ b.names := by
        intro hm
        rw [List.nodup_append] at h
        exact h.2.2 name hm name (by simp) rfl
      rw [appendAll, appendMade, append_fresh b text hname]
      simp only
      rw [ih]
      · simp [extend, made, obstacle?]
      · simpa [extend] using h

theorem add_fresh (b : Builder) {a : Attempt} (hcanonical : a.1 ∉ canonicalNames)
    (hname : a.1 ∉ b.names) :
    b.add a = (b.extend b.phase (made [a]), answer () (obstacle? [a])) := by
  obtain ⟨name, cause | text⟩ := a
  · simp [add, made, obstacle?, answer]
  · rw [add, if_neg hcanonical]
    exact append_fresh b text hname

theorem addSide_fresh (b : Builder) {p : Phase} {label : String} {side : Value}
    {as : List Attempt} (hp : b.phase.rank + 1 = p.rank)
    (hside : sideAttempts? b.room label side = some as)
    (hnodup : (b.names ++ as.map Prod.fst).Nodup) :
    b.addSide p label side = (b.extend p (made as), answer () (obstacle? as)) := by
  simp only [addSide, advance, if_pos hp, hside]
  exact appendAll_fresh { b with phase := p } as hnodup

theorem call_taken {b : Builder} {c : Call} {p : Phase} (hc : c.phase? = some p)
    (henters : Enters b c) (hnodup : (b.names ++ (c.attempts b.room).map Prod.fst).Nodup) :
    b.call c = (b.extend p (c.pairs b.room), answer none (c.obstacle? b.room)) := by
  cases c with
  | lead name value absent =>
    cases hc
    obtain ⟨hp, hcanonical, hname⟩ := henters
    rw [call, lead, if_pos hp, add_fresh b hcanonical hname, hp, Prod.map_apply, map_answer]
    rfl
  | originator side =>
    cases hc
    obtain ⟨hp, hside⟩ := henters
    obtain ⟨as, has⟩ := Option.isSome_iff_exists.mp hside
    simp only [Call.pairs, Call.obstacle?, Call.attempts, has, Option.getD_some] at hnodup ⊢
    rw [call, originator, addSide_fresh b (by rw [hp]; rfl) has hnodup, Prod.map_apply, map_answer]
    rfl
  | responder side =>
    cases hc
    obtain ⟨hp, hside⟩ := henters
    obtain ⟨as, has⟩ := Option.isSome_iff_exists.mp hside
    simp only [Call.pairs, Call.obstacle?, Call.attempts, has, Option.getD_some] at hnodup ⊢
    rw [call, responder, addSide_fresh b (by rw [hp]; rfl) has hnodup, Prod.map_apply, map_answer]
    rfl
  | proto value =>
    cases hc
    have hp : b.phase = .responder := henters
    have hrank : b.phase.rank + 1 = Phase.proto.rank := by rw [hp]; rfl
    have hname : "proto" ∉ b.names := fun hm =>
      (List.nodup_append.mp hnodup).2.2 _ hm _ (by simp [Call.attempts]) rfl
    -- no other call supplies this name, so it stands where it is called for
    have happend := appendMade_fresh { b with phase := .proto }
      (a := ("proto", value.format b.room)) hname
    simp only [call, proto, advance, if_pos hrank]
    rw [happend, Prod.map_apply, map_answer]
    rfl
  | field name value absent =>
    cases hc
    obtain ⟨hp, hcanonical, hname⟩ := henters
    rw [call, field, if_neg (Nat.not_lt.mpr hp), add_fresh { b with phase := .kind } hcanonical hname,
      Prod.map_apply, map_answer]
    rfl
  | build => cases hc

end Builder

end Detection
