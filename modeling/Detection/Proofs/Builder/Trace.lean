import Detection.Proofs.Builder.Taken

/-! # What a run of calls leaves in a builder

Refused calls do not end a run. The pairs of the calls that were taken, phase by phase, are at every
moment the pairs the builder holds. A value that is no side, or a text that cannot be made, leaves
its phase behind without all of its pairs for good.
-/

namespace Detection

namespace Builder

/-! ## Traces -/

abbrev Answer := Except Refusal (Option (List Pair))

abbrev Trace := List (Call × Answer)

/-- Refusals of what a call gives. The others are about its place or its name. -/
def Refusal.isLoss : Refusal → Bool
  | .notSide _ _ | .unmade _ => true
  | _ => false

/-- Whether the pairs are kept that a call makes: it was taken as a whole, or up to some text. -/
def keepsPairs : Answer → Bool
  | .ok _ | .error (.unmade _) => true
  | .error _ => false

def Trace.taken (room : Option Nat) (t : Trace) (p : Phase) : List Pair :=
  t.flatMap fun (c, a) => if c.phase? = some p ∧ keepsPairs a then c.pairs room else []

/-- A call that adds pairs in this phase was taken as a whole. -/
def Trace.Supplied (t : Trace) (p : Phase) : Prop :=
  ∃ c a, c.phase? = some p ∧ (c, .ok a) ∈ t

/-- A call for this phase was refused for what it gave. -/
def Trace.Lost (t : Trace) (p : Phase) : Prop :=
  ∃ c r, c.phase? = some p ∧ (c, .error r) ∈ t ∧ r.isLoss = true

def traceOf (room : Option Nat) (calls : List Call) : Trace :=
  calls.zip ((start room).run calls).2

@[simp] theorem keepsPairs_answer (x : Option (List Pair)) (o : Option Excess) :
    keepsPairs (answer x o) = true := by
  cases o <;> rfl

theorem answer_ok_iff {x : Option (List Pair)} {o : Option Excess} :
    (∃ y, answer x o = .ok y) ↔ o = none := by
  cases o <;> simp [answer]

theorem answer_loss_iff {x : Option (List Pair)} {o : Option Excess} :
    (∃ r, answer x o = .error r ∧ r.isLoss = true) ↔ o ≠ none := by
  cases o <;> simp [answer, Refusal.isLoss]

section Traces

variable {room : Option Nat} {t : Trace} {c : Call} {a : Answer} {p : Phase}

theorem taken_append (t u : Trace) (p : Phase) :
    (t ++ u).taken room p = t.taken room p ++ u.taken room p := by
  simp [Trace.taken]

theorem taken_kept (hc : c.phase? = some p) (ha : keepsPairs a = true) (q : Phase) :
    Trace.taken room [(c, a)] q = if q = p then c.pairs room else [] := by
  by_cases hq : q = p
  · simp [Trace.taken, hc, hq, ha]
  · simp [Trace.taken, hc, hq, Ne.symm hq]

theorem taken_nil (h : c.pairs room = []) (a : Answer) (q : Phase) :
    Trace.taken room [(c, a)] q = [] := by
  simp [Trace.taken, h]

theorem taken_refused {r : Refusal} (hr : r.isLoss = false) (q : Phase) :
    Trace.taken room [(c, .error r)] q = [] := by
  cases r <;> simp [Trace.taken, keepsPairs, Refusal.isLoss] at hr ⊢

theorem supplied_concat :
    Trace.Supplied (t ++ [(c, a)]) p ↔ t.Supplied p ∨ c.phase? = some p ∧ ∃ x, a = .ok x := by
  simp only [Trace.Supplied, List.mem_append, List.mem_singleton, Prod.mk.injEq]
  constructor
  · rintro ⟨c', x, hc', hmem | ⟨rfl, rfl⟩⟩
    · exact .inl ⟨c', x, hc', hmem⟩
    · exact .inr ⟨hc', x, rfl⟩
  · rintro (⟨c', x, hc', hmem⟩ | ⟨hc, x, rfl⟩)
    · exact ⟨c', x, hc', .inl hmem⟩
    · exact ⟨c, x, hc, .inr ⟨rfl, rfl⟩⟩

theorem lost_concat :
    Trace.Lost (t ++ [(c, a)]) p ↔
      t.Lost p ∨ c.phase? = some p ∧ ∃ r, a = .error r ∧ r.isLoss = true := by
  simp only [Trace.Lost, List.mem_append, List.mem_singleton, Prod.mk.injEq]
  constructor
  · rintro ⟨c', r, hc', hmem | ⟨rfl, rfl⟩, hr⟩
    · exact .inl ⟨c', r, hc', hmem, hr⟩
    · exact .inr ⟨hc', r, rfl, hr⟩
  · rintro (⟨c', r, hc', hmem, hr⟩ | ⟨hc, r, rfl, hr⟩)
    · exact ⟨c', r, hc', .inl hmem, hr⟩
    · exact ⟨c, r, hc, .inr ⟨rfl, rfl⟩, hr⟩

end Traces

/-! ## The names of a side -/

/-- The phases of the two sides, and how their names start. -/
def sideLabels : List (Phase × String) := [(.originator, "orig"), (.responder, "resp")]

/-- The three names a side may come with: one host and port, one host and several ports, or several
hosts. -/
def sideNames (label : String) : List (List String) :=
  [[label ++ "_addr", label ++ "_port", label ++ "_country_code"],
    [label ++ "_addr", label ++ "_ports", label ++ "_country_code"],
    [label ++ "_addrs", label ++ "_ports", label ++ "_country_codes"]]

/-- The names that may stand together where a phase has canonical names. -/
def canonicalBlocks : Phase → List (List String)
  | .originator => sideNames "orig"
  | .responder => sideNames "resp"
  | .proto => [["proto"]]
  | .lead | .kind => []

theorem side_block_ne_nil : ∀ s ∈ sideLabels, canonicalBlocks s.1 ≠ [] := by decide

theorem names_of_sideAttempts? {room : Option Nat} {label : String} {side : Value}
    {as : List Attempt} (h : sideAttempts? room label side = some as) :
    as.map Prod.fst ∈ sideNames label := by
  cases side <;> simp only [sideAttempts?, Option.some.injEq, reduceCtorEq] at h
  all_goals subst h; simp [sideNames]

theorem length_sideNames {label : String} {ns : List String} (h : ns ∈ sideNames label) :
    ns.length = 3 := by
  simp only [sideNames, List.mem_cons, List.not_mem_nil, or_false] at h
  rcases h with rfl | rfl | rfl <;> rfl

theorem canonicalBlocks_nodup :
    ∀ p ∈ Phase.all, ∀ ns ∈ canonicalBlocks p, ns.Nodup ∧ ∀ n ∈ ns, n ∈ canonicalNames := by
  decide

theorem canonicalBlocks_disjoint :
    ∀ p ∈ Phase.all, ∀ q ∈ Phase.all, p ≠ q →
      ∀ ns ∈ canonicalBlocks p, ∀ ms ∈ canonicalBlocks q, ∀ n ∈ ns, n ∉ ms := by
  decide

def blockSize (p : Phase) : Nat := if p = .proto then 1 else 3

theorem length_block :
    ∀ p ∈ Phase.all, ∀ ns ∈ canonicalBlocks p, ns.length = blockSize p ∧ ns ≠ [] := by
  decide

theorem nil_not_mem_blocks (p : Phase) : [] ∉ canonicalBlocks p := fun h =>
  (length_block p p.mem_all [] h).2 rfl

theorem pairs_block_iff {room : Option Nat} {c : Call} {p : Phase}
    (hblock : (c.attempts room).map Prod.fst ∈ canonicalBlocks p) :
    (c.pairs room).map Prod.fst ∈ canonicalBlocks p ↔ c.obstacle? room = none := by
  constructor
  · intro hpairs
    cases hcause : c.obstacle? room with
    | none => rfl
    | some cause =>
      have hall := (length_block p p.mem_all _ hblock).1
      have hmade := (length_block p p.mem_all _ hpairs).1
      have hlt := length_made_lt hcause
      rw [List.length_map] at hall hmade
      rw [Call.pairs] at hmade
      omega
  · intro hnone
    rw [Call.pairs, names_made hnone]
    exact hblock

theorem rank_le_proto {p : Phase} (h : canonicalBlocks p ≠ []) : p.rank ≤ Phase.proto.rank := by
  cases p <;> first | decide | exact absurd rfl h

/-! ## What one call does -/

/-- What a call leaves and answers: its pairs at the end, as far as they can be made, or no pair at
all. Two kinds of refused calls move the builder on nevertheless: a value that is no side, and a
field with a wrong name. -/
inductive Effect (b : Builder) (c : Call) : Builder × Answer → Prop
  | taken {p : Phase} (hp : c.phase? = some p) (enters : Enters b c) :
    Effect b c (b.extend p (c.pairs b.room), answer none (c.obstacle? b.room))
  | built {a : Answer} (hc : c = .build) (ha : ∀ r, a = .error r → r.isLoss = false) :
    Effect b c (b, a)
  | refused {p : Phase} {r : Refusal}
    (hr : r.isLoss = true →
      c.pairs b.room = [] ∧ ∃ q, c.phase? = some q ∧ canonicalBlocks q = [])
    (hp : p = b.phase ∨ Phase.proto.rank ≤ b.phase.rank ∧ p = .kind) :
    Effect b c ({ b with phase := p }, .error r)
  | notSide {p : Phase} {label typeName : String} (hc : c.phase? = some p)
    (hs : canonicalBlocks p ≠ []) (hp : b.phase.rank + 1 = p.rank) (hnone : c.pairs b.room = []) :
    Effect b c ({ b with phase := p }, .error (.notSide label typeName))

/-! ## Following a trace -/

/-- The builder holds what the taken calls of a trace added. A phase that is still to come has no
pairs. One with canonical names has a first part of them: all if a call for it was taken as a whole,
and if the phase lies behind without all of them, then what a call gave was refused there. -/
structure Follows (t : Trace) (b : Builder) : Prop where
  pairs_eq : b.pairs = Phase.all.flatMap (t.taken b.room)
  names_eq : b.names = b.pairs.map Prod.fst
  nodup : b.names.Nodup
  ahead : ∀ p : Phase, b.phase.rank < p.rank → t.taken b.room p = []
  ordinary : ∀ p : Phase, canonicalBlocks p = [] →
    ∀ q ∈ t.taken b.room p, q.1 ∉ canonicalNames
  block : ∀ p : Phase, canonicalBlocks p ≠ [] →
    ∃ ns ∈ canonicalBlocks p, (t.taken b.room p).map Prod.fst <+: ns
  supplied_iff : ∀ p : Phase, canonicalBlocks p ≠ [] →
    (t.Supplied p ↔ (t.taken b.room p).map Prod.fst ∈ canonicalBlocks p)
  lost_iff : ∀ p : Phase, canonicalBlocks p ≠ [] →
    (t.Lost p ↔ p.rank ≤ b.phase.rank ∧ (t.taken b.room p).map Prod.fst ∉ canonicalBlocks p)

theorem follows_start (room : Option Nat) : Follows [] (start room) where
  pairs_eq := by simp [start, Trace.taken, Phase.all]
  names_eq := rfl
  nodup := List.nodup_nil
  ahead _ _ := rfl
  ordinary := by simp [Trace.taken]
  block p hp := by
    obtain ⟨ns, hns⟩ := List.exists_mem_of_ne_nil _ hp
    exact ⟨ns, hns, List.nil_prefix⟩
  supplied_iff p _ := by
    simpa [Trace.Supplied, Trace.taken] using nil_not_mem_blocks p
  lost_iff p hp := by
    have hrank : ¬ p.rank ≤ Phase.lead.rank := by
      cases p <;> first | decide | exact absurd rfl hp
    simp [Trace.Lost, start, hrank]

namespace Follows

variable {t : Trace} {b : Builder}

theorem fresh (h : Follows t b) {p : Phase} (hp : b.phase.rank < p.rank) {ns : List String}
    (hns : ns ∈ canonicalBlocks p) : (b.names ++ ns).Nodup := by
  obtain ⟨hnodup, hcanonical⟩ := canonicalBlocks_nodup p p.mem_all ns hns
  rw [List.nodup_append]
  refine ⟨h.nodup, hnodup, ?_⟩
  rintro n hn m hm rfl
  rw [h.names_eq, h.pairs_eq, List.mem_map] at hn
  obtain ⟨pair, hpair, rfl⟩ := hn
  obtain ⟨q, -, hq⟩ := List.mem_flatMap.mp hpair
  have hqp : p ≠ q := by
    rintro rfl
    exact List.ne_nil_of_mem hq (h.ahead p hp)
  by_cases hblock : canonicalBlocks q = []
  · exact h.ordinary q hblock pair hq (hcanonical _ hm)
  · obtain ⟨ms, hms, hstart⟩ := h.block q hblock
    exact canonicalBlocks_disjoint p p.mem_all q q.mem_all hqp ns hns ms hms _ hm
      (hstart.subset (List.mem_map_of_mem hq))

/-! ## The calls that are taken -/

/-- A call that is taken adds one ordinary name in the present phase, or the names of the next one. -/
theorem enters_cases {c : Call} {p : Phase} (hc : c.phase? = some p) (h : Enters b c) :
    (canonicalBlocks p = [] ∧ (p = b.phase ∨ Phase.proto.rank ≤ b.phase.rank ∧ p = .kind) ∧
      ∃ name text, c.attempts b.room = [(name, text)] ∧ name ∉ canonicalNames ∧ name ∉ b.names) ∨
    (b.phase.rank + 1 = p.rank ∧ (c.attempts b.room).map Prod.fst ∈ canonicalBlocks p) := by
  cases c with
  | lead name value absent =>
    cases hc
    exact .inl ⟨rfl, .inl h.1.symm, _, _, rfl, h.2⟩
  | field name value absent =>
    cases hc
    exact .inl ⟨rfl, .inr ⟨h.1, rfl⟩, _, _, rfl, h.2⟩
  | originator side | responder side =>
    cases hc
    obtain ⟨hp, hside⟩ := h
    obtain ⟨as, has⟩ := Option.isSome_iff_exists.mp hside
    refine .inr ⟨by rw [hp]; rfl, ?_⟩
    simp only [Call.attempts, has, Option.getD_some]
    exact names_of_sideAttempts? has
  | proto value =>
    cases hc
    exact .inr ⟨by rw [show b.phase = .responder from h]; rfl,
      by simp [Call.attempts, canonicalBlocks]⟩
  | build => cases hc

theorem rank_le_of_enters {c : Call} {p : Phase} (hc : c.phase? = some p) (h : Enters b c) :
    b.phase.rank ≤ p.rank := by
  rcases enters_cases hc h with ⟨-, rfl | ⟨-, rfl⟩, -⟩ | ⟨hp, -⟩
  · exact Nat.le_refl _
  · exact b.phase.rank_le_kind
  · omega

theorem enters_nodup (h : Follows t b) {c : Call} {p : Phase} (hc : c.phase? = some p)
    (henters : Enters b c) : (b.names ++ (c.attempts b.room).map Prod.fst).Nodup := by
  rcases enters_cases hc henters with ⟨-, -, name, text, has, -, hfree⟩ | ⟨hp, hblock⟩
  · rw [has, List.nodup_append]
    refine ⟨h.nodup, by simp, ?_⟩
    rintro n hn m hm rfl
    simp only [List.map_cons, List.map_nil, List.mem_singleton] at hm
    exact hfree (hm ▸ hn)
  · exact h.fresh (by omega) hblock

/-! ## Every call has one of the effects -/

theorem add_refused {b : Builder} {a : Attempt} (h : ¬(a.1 ∉ canonicalNames ∧ a.1 ∉ b.names)) :
    ∃ r, b.add a = (b, .error r) ∧ (r.isLoss = true → made [a] = []) := by
  obtain ⟨name, cause | text⟩ := a
  · exact ⟨_, rfl, fun _ => rfl⟩
  · rw [add, append]
    by_cases hcanonical : name ∈ canonicalNames
    · rw [if_pos hcanonical]
      exact ⟨_, rfl, by simp [Refusal.isLoss]⟩
    · have hname : name ∈ b.names := Classical.not_not.mp fun hname => h ⟨hcanonical, hname⟩
      rw [if_neg hcanonical, if_pos hname]
      exact ⟨_, rfl, by simp [Refusal.isLoss]⟩

theorem addSide_effect {b : Builder} {c : Call} {s : Phase × String} (hs : s ∈ sideLabels)
    (hc : c.phase? = some s.1) {side : Value}
    (hpairs : c.pairs b.room = made ((sideAttempts? b.room s.2 side).getD []))
    (h : ¬(b.phase.rank + 1 = s.1.rank ∧ (sideAttempts? b.room s.2 side).isSome)) :
    Effect b c ((b.addSide s.1 s.2 side).map id (Except.map fun _ => none)) := by
  unfold addSide advance
  by_cases hp : b.phase.rank + 1 = s.1.rank
  · have hside : sideAttempts? b.room s.2 side = none := by simpa [hp] using h
    simp only [if_pos hp, hside]
    exact .notSide hc (side_block_ne_nil s hs) hp (by rw [hpairs, hside]; rfl)
  · simp only [if_neg hp]
    exact .refused (by simp [Refusal.isLoss]) (.inl rfl)

theorem call_refused {c : Call} (h : ¬Enters b c) : Effect b c (b.call c) := by
  cases c with
  | lead name value absent =>
    rw [Builder.call, lead]
    split
    · rename_i hp
      obtain ⟨r, hadd, hr⟩ := add_refused (a := (name, text b.room value absent)) fun hfree =>
        h ⟨hp, hfree⟩
      rw [hadd]
      exact .refused (fun hloss => ⟨hr hloss, .lead, rfl, rfl⟩) (.inl rfl)
    · exact .refused (by simp [Refusal.isLoss]) (.inl rfl)
  | originator side =>
    -- what is no side is refused only after the phase has moved on
    apply addSide_effect (s := (.originator, "orig")) (by simp [sideLabels]) rfl rfl
    exact fun hfits => h ⟨Phase.rank_succ hfits.1 rfl, hfits.2⟩
  | responder side =>
    apply addSide_effect (s := (.responder, "resp")) (by simp [sideLabels]) rfl rfl
    exact fun hfits => h ⟨Phase.rank_succ hfits.1 rfl, hfits.2⟩
  | proto value =>
    have hp : b.phase.rank + 1 ≠ Phase.proto.rank := fun hp => h (Phase.rank_succ hp rfl)
    simp only [Builder.call, Builder.proto, advance, if_neg hp]
    exact .refused (by simp [Refusal.isLoss]) (.inl rfl)
  | field name value absent =>
    rw [Builder.call, field]
    split
    · exact .refused (by simp [Refusal.isLoss]) (.inl rfl)
    · rename_i hp
      have hp := Nat.le_of_not_lt hp
      obtain ⟨r, hadd, hr⟩ := add_refused (b := { b with phase := .kind })
        (a := (name, text b.room value absent)) fun hfree => h ⟨hp, hfree⟩
      rw [hadd]
      exact .refused (fun hloss => ⟨hr hloss, .kind, rfl, rfl⟩) (.inr ⟨hp, rfl⟩)
  | build =>
    simp only [Builder.call, build]
    split
    · refine .built rfl fun r hr => ?_
      cases hr
      rfl
    · exact .built rfl fun r hr => by cases hr

theorem call_effect (h : Follows t b) (c : Call) : Effect b c (b.call c) := by
  by_cases henters : Enters b c
  · obtain ⟨p, hc⟩ := henters.exists_phase
    rw [call_taken hc henters (h.enters_nodup hc henters)]
    exact .taken hc henters
  · exact call_refused henters

/-! ## Every effect keeps the builder on its trace -/

theorem flatMap_all_insert (f : Phase → List Pair) (p : Phase) (ps : List Pair)
    (h : ∀ q : Phase, p.rank < q.rank → f q = []) :
    Phase.all.flatMap (fun q => f q ++ if q = p then ps else []) = Phase.all.flatMap f ++ ps := by
  cases p <;> simp_all [Phase.all, Phase.rank]

theorem move (h : Follows t b) {c : Call} {a : Answer} {p : Phase}
    (htaken : ∀ q, Trace.taken b.room [(c, a)] q = []) (hle : b.phase.rank ≤ p.rank)
    (hsupplied : ∀ q, c.phase? = some q → canonicalBlocks q ≠ [] → ∀ x, a ≠ .ok x)
    (hlost : ∀ q, canonicalBlocks q ≠ [] →
      (Trace.Lost (t ++ [(c, a)]) q ↔
        q.rank ≤ p.rank ∧ (t.taken b.room q).map Prod.fst ∉ canonicalBlocks q)) :
    Follows (t ++ [(c, a)]) { b with phase := p } := by
  have hsame (q : Phase) : (t ++ [(c, a)]).taken b.room q = t.taken b.room q := by
    rw [taken_append, htaken, List.append_nil]
  refine
    { pairs_eq := by rw [funext hsame]; exact h.pairs_eq
      names_eq := h.names_eq
      nodup := h.nodup
      ahead := fun q hq => by rw [hsame]; exact h.ahead q (Nat.lt_of_le_of_lt hle hq)
      ordinary := fun q hq => by rw [hsame]; exact h.ordinary q hq
      block := fun q hq => by rw [hsame]; exact h.block q hq
      supplied_iff := fun q hq => ?_
      lost_iff := fun q hq => by rw [hsame]; exact hlost q hq }
  rw [hsame, ← h.supplied_iff q hq, supplied_concat]
  exact or_iff_left fun ⟨hc, x, hx⟩ => hsupplied q hc hq x hx

theorem stay (h : Follows t b) {c : Call} {a : Answer} {p : Phase}
    (htaken : ∀ q, Trace.taken b.room [(c, a)] q = [])
    (hp : p = b.phase ∨ Phase.proto.rank ≤ b.phase.rank ∧ p = .kind)
    (hnone : ∀ q, c.phase? = some q → canonicalBlocks q ≠ [] →
      ∃ r, a = .error r ∧ r.isLoss = false) :
    Follows (t ++ [(c, a)]) { b with phase := p } := by
  have hle : b.phase.rank ≤ p.rank := by
    rcases hp with rfl | ⟨-, rfl⟩
    · exact Nat.le_refl _
    · exact b.phase.rank_le_kind
  refine h.move htaken hle (fun q hc hq x hx => ?_) fun q hq => ?_
  · obtain ⟨r, rfl, -⟩ := hnone q hc hq
    cases hx
  · have hrank : q.rank ≤ p.rank ↔ q.rank ≤ b.phase.rank := by
      have hproto := rank_le_proto hq
      rcases hp with rfl | ⟨hb, rfl⟩
      · rfl
      · omega
    rw [hrank, ← h.lost_iff q hq, lost_concat]
    refine or_iff_left ?_
    rintro ⟨hc, r, rfl, hr⟩
    obtain ⟨r', heq, hr'⟩ := hnone q hc hq
    cases heq
    rw [hr] at hr'
    cases hr'

theorem skip (h : Follows t b) {c : Call} {p : Phase} {label typeName : String}
    (hc : c.phase? = some p) (hp : b.phase.rank + 1 = p.rank) (hnone : c.pairs b.room = []) :
    Follows (t ++ [(c, .error (.notSide label typeName))]) { b with phase := p } := by
  refine h.move (taken_nil hnone _) (by omega) (by simp) fun q hq => ?_
  rw [lost_concat, h.lost_iff q hq]
  by_cases heq : q = p
  · have hnil := h.ahead p (by omega)
    rw [heq, hnil]
    exact iff_of_true (.inr ⟨hc, _, rfl, rfl⟩) ⟨Nat.le_refl _, nil_not_mem_blocks p⟩
  · have hne : q.rank ≠ p.rank := fun hrank => heq (Phase.rank_inj hrank)
    rw [or_iff_left fun ⟨hc', _⟩ => heq (Option.some.inj (hc'.symm.trans hc))]
    exact and_congr_left fun _ => by omega

section Take

variable {c : Call} {p : Phase} (h : Follows t b) (hc : c.phase? = some p)

include hc in
/-- Beside the phase of a call nothing changes. -/
theorem taken_other (a : Answer) {q : Phase} (hq : q ≠ p) :
    (t ++ [(c, a)]).taken b.room q = t.taken b.room q := by
  have hnone : Trace.taken b.room [(c, a)] q = [] := by simp [Trace.taken, hc, Ne.symm hq]
  rw [taken_append, hnone, List.append_nil]

include h hc

theorem taken_next (hnext : b.phase.rank + 1 = p.rank) (o : Option Excess) :
    (t ++ [(c, answer none o)]).taken b.room p = c.pairs b.room := by
  rw [taken_append, taken_kept hc (keepsPairs_answer _ _), if_pos rfl, h.ahead p (by omega),
    List.nil_append]

variable (henters : Enters b c)

include henters

theorem supplied_taken {q : Phase} (hq : canonicalBlocks q ≠ []) :
    Trace.Supplied (t ++ [(c, answer none (c.obstacle? b.room))]) q ↔
      ((t ++ [(c, answer none (c.obstacle? b.room))]).taken b.room q).map Prod.fst ∈
        canonicalBlocks q := by
  rw [supplied_concat, h.supplied_iff q hq]
  by_cases heq : q = p
  · subst heq
    rcases enters_cases hc henters with ⟨hnil, -⟩ | ⟨hnext, hblock⟩
    · exact absurd hnil hq
    · have hnil : t.taken b.room q = [] := h.ahead q (by omega)
      rw [h.taken_next hc hnext, hnil, pairs_block_iff hblock, answer_ok_iff, or_iff_right]
      · exact and_iff_right hc
      · exact nil_not_mem_blocks q
  · rw [taken_other hc _ heq]
    exact or_iff_left fun hreached => heq (Option.some.inj (hreached.1.symm.trans hc))

theorem lost_taken {q : Phase} (hq : canonicalBlocks q ≠ []) :
    Trace.Lost (t ++ [(c, answer none (c.obstacle? b.room))]) q ↔ q.rank ≤ p.rank ∧
      ((t ++ [(c, answer none (c.obstacle? b.room))]).taken b.room q).map Prod.fst ∉
        canonicalBlocks q := by
  rw [lost_concat, h.lost_iff q hq]
  by_cases heq : q = p
  · subst heq
    rcases enters_cases hc henters with ⟨hnil, -⟩ | ⟨hnext, hblock⟩
    · exact absurd hnil hq
    · -- a block is lost here if it was cut off, as no earlier call had its phase
      rw [h.taken_next hc hnext, pairs_block_iff hblock, answer_loss_iff, or_iff_right]
      · exact and_congr_left fun _ => iff_of_true hc (Nat.le_refl _)
      · exact fun hlost => absurd hlost.1 (by omega)
  · rw [taken_other hc _ heq,
      or_iff_left fun hreached => heq (Option.some.inj (hreached.1.symm.trans hc))]
    refine and_congr_left fun _ => ?_
    rcases enters_cases hc henters with ⟨-, rfl | ⟨hphase, rfl⟩, -⟩ | ⟨hnext, -⟩
    · rfl
    · have hproto := rank_le_proto hq
      exact iff_of_true (Nat.le_trans hproto hphase)
        (Nat.le_trans hproto Phase.proto.rank_le_kind)
    · have hne : q.rank ≠ p.rank := fun hrank => heq (Phase.rank_inj hrank)
      omega

theorem take :
    Follows (t ++ [(c, answer none (c.obstacle? b.room))]) (b.extend p (c.pairs b.room)) := by
  have hcases := enters_cases hc henters
  have hle := rank_le_of_enters hc henters
  have hstart := names_made_prefix (c.attempts b.room)
  have htaken (q : Phase) : (t ++ [(c, answer none (c.obstacle? b.room))]).taken b.room q =
      t.taken b.room q ++ if q = p then c.pairs b.room else [] := by
    rw [taken_append, taken_kept hc (keepsPairs_answer _ _)]
  have hpairs : (b.extend p (c.pairs b.room)).pairs =
      Phase.all.flatMap ((t ++ [(c, answer none (c.obstacle? b.room))]).taken b.room) := by
    rw [funext htaken, flatMap_all_insert _ _ _ fun q hq => h.ahead q (by omega), ← h.pairs_eq]
    rfl
  refine
    { pairs_eq := hpairs
      names_eq := by simp [extend, h.names_eq]
      nodup := (h.enters_nodup hc henters).sublist (hstart.sublist.append_left b.names)
      ahead := fun q hq => ?ahead
      ordinary := fun q hq pair hpair => ?ordinary
      block := fun q hq => ?block
      supplied_iff := fun q hq => h.supplied_taken hc henters hq
      lost_iff := fun q hq => h.lost_taken hc henters hq }
  case ahead =>
    rw [extend_phase] at hq
    rw [extend_room, taken_other hc _ (by rintro rfl; omega), h.ahead q (by omega)]
  case ordinary =>
    rw [extend_room, htaken, List.mem_append] at hpair
    rcases hpair with hpair | hpair
    · exact h.ordinary q hq pair hpair
    · split at hpair
      · subst q
        -- a lead or kind call adds a name of its own
        rcases hcases with ⟨-, -, name, text, has, hname, -⟩ | ⟨-, hblock⟩
        · have hmem := hstart.subset (List.mem_map_of_mem hpair)
          rw [has] at hmem
          obtain heq : pair.1 = name := by simpa using hmem
          rw [heq]
          exact hname
        · simp [hq] at hblock
      · simp at hpair
  case block =>
    rw [extend_room]
    by_cases heq : q = p
    · subst heq
      rcases hcases with ⟨hnil, -⟩ | ⟨hnext, hblock⟩
      · exact absurd hnil hq
      · refine ⟨_, hblock, ?_⟩
        rw [h.taken_next hc hnext]
        exact hstart
    · rw [taken_other hc _ heq]
      exact h.block q hq

end Take

theorem call (h : Follows t b) (c : Call) : Follows (t ++ [(c, (b.call c).2)]) (b.call c).1 := by
  have heffect := h.call_effect c
  generalize b.call c = out at heffect
  cases heffect with
  | taken hp henters => exact h.take hp henters
  | built hc ha =>
    subst hc
    exact h.stay (taken_nil rfl _) (.inl rfl) (by simp [Call.phase?])
  | @refused p r hr hp =>
    refine h.stay (fun q => ?_) hp fun q hq hblock => ⟨r, rfl, ?_⟩
    · cases hloss : r.isLoss with
      | true => exact taken_nil (hr hloss).1 _ q
      | false => exact taken_refused hloss q
    · rw [Bool.eq_false_iff]
      intro hloss
      obtain ⟨-, q', hq', hnil⟩ := hr hloss
      obtain rfl : q = q' := Option.some.inj (hq.symm.trans hq')
      exact hblock hnil
  | notSide hc hs hp hnone => exact h.skip hc hp hnone

theorem run (h : Follows t b) (calls : List Call) :
    Follows (t ++ calls.zip (b.run calls).2) (b.run calls).1 := by
  induction calls generalizing t b with
  | nil => simpa [Builder.run] using h
  | cons c cs ih =>
    have hrest := ih (h.call c)
    simpa [Builder.run] using hrest

theorem room_run (h : Follows t b) (calls : List Call) : (b.run calls).1.room = b.room := by
  induction calls generalizing t b with
  | nil => rfl
  | cons c cs ih =>
    have hroom : (b.call c).1.room = b.room := by
      have heffect := h.call_effect c
      generalize b.call c = out at heffect ⊢
      cases heffect <;> rfl
    exact (ih (h.call c)).trans hroom

end Follows

theorem follows_run (room : Option Nat) (calls : List Call) :
    Follows (traceOf room calls) ((start room).run calls).1 := by
  simpa [traceOf] using (follows_start room).run calls

theorem room_run (room : Option Nat) (calls : List Call) :
    ((start room).run calls).1.room = room :=
  (follows_start room).room_run calls

end Builder

end Detection
