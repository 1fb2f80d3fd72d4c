import Detection.Proofs.Builder.Trace

/-! # When a builder that builds has both sides

A builder moves on before it looks at the side it is given, and before it makes the first text. A
value that is no side is refused, and so is one whose text cannot be made, but the phase is over, and
a later build no longer misses the pairs.
-/

namespace Detection.Builder

/-- Exactly one originator, then exactly one responder, then exactly one protocol, each with all its
names, between pairs whose names are ordinary. -/
def Whole (pairs : List Pair) : Prop :=
  ∃ leads originator responder proto details,
    pairs = leads ++ originator ++ responder ++ [("proto", proto)] ++ details ∧
      originator.map Prod.fst ∈ sideNames "orig" ∧ responder.map Prod.fst ∈ sideNames "resp" ∧
      ∀ q ∈ leads ++ details, q.1 ∉ canonicalNames

def canonicalPairs (pairs : List Pair) : List Pair := pairs.filter fun q => q.1 ∈ canonicalNames

theorem canonicalPairs_append (ps qs : List Pair) :
    canonicalPairs (ps ++ qs) = canonicalPairs ps ++ canonicalPairs qs :=
  List.filter_append ..

theorem canonicalPairs_ordinary {ps : List Pair} (h : ∀ q ∈ ps, q.1 ∉ canonicalNames) :
    canonicalPairs ps = [] := by
  simpa [canonicalPairs] using h

theorem canonicalPairs_block {p : Phase} {ps : List Pair}
    (h : ps.map Prod.fst ∈ canonicalBlocks p) : canonicalPairs ps = ps := by
  have hcanonical := (canonicalBlocks_nodup p p.mem_all _ h).2
  simpa [canonicalPairs, List.filter_eq_self] using hcanonical

theorem length_of_whole {pairs : List Pair} (h : Whole pairs) : (canonicalPairs pairs).length = 7 := by
  obtain ⟨leads, o, r, proto, details, rfl, ho, hr, hord⟩ := h
  have hleads := canonicalPairs_ordinary fun q hq => hord q (List.mem_append_left _ hq)
  have hdetails := canonicalPairs_ordinary fun q hq => hord q (List.mem_append_right _ hq)
  have ho3 := length_sideNames ho
  have hr3 := length_sideNames hr
  rw [List.length_map] at ho3 hr3
  simp only [canonicalPairs_append, hleads, hdetails, canonicalPairs_block (p := .originator) ho,
    canonicalPairs_block (p := .responder) hr, List.length_append, ho3, hr3]
  rw [canonicalPairs_block (p := .proto) (by simp [canonicalBlocks])]
  rfl

/-! ## What a build answers -/

theorem mem_block_iff_length {p : Phase} {names ns : List String} (hns : ns ∈ canonicalBlocks p)
    (hstart : names <+: ns) : names ∈ canonicalBlocks p ↔ blockSize p ≤ names.length := by
  constructor
  · exact fun h => Nat.le_of_eq (length_block p p.mem_all _ h).1.symm
  · intro hlength
    rw [← (length_block p p.mem_all _ hns).1] at hlength
    rw [hstart.eq_of_length_le hlength]
    exact hns

namespace Follows

variable {t : Trace} {b : Builder}

theorem pairs_append (h : Follows t b) :
    b.pairs =
      t.taken b.room .lead ++ t.taken b.room .originator ++ t.taken b.room .responder ++
        t.taken b.room .proto ++ t.taken b.room .kind := by
  rw [h.pairs_eq]
  simp [Phase.all]

theorem canonicalPairs_taken (h : Follows t b) {p : Phase} (hp : canonicalBlocks p ≠ []) :
    canonicalPairs (t.taken b.room p) = t.taken b.room p := by
  obtain ⟨ns, hns, hstart⟩ := h.block p hp
  have hcanonical := (canonicalBlocks_nodup p p.mem_all _ hns).2
  have hall : ∀ q ∈ t.taken b.room p, q.1 ∈ canonicalNames := fun q hq =>
    hcanonical _ (hstart.subset (List.mem_map_of_mem hq))
  simpa [canonicalPairs, List.filter_eq_self] using hall

theorem canonicalPairs_eq (h : Follows t b) :
    canonicalPairs b.pairs =
      t.taken b.room .originator ++ t.taken b.room .responder ++ t.taken b.room .proto := by
  rw [h.pairs_append]
  simp only [canonicalPairs_append, canonicalPairs_ordinary (h.ordinary .lead rfl),
    canonicalPairs_ordinary (h.ordinary .kind rfl),
    h.canonicalPairs_taken (p := .originator) (by simp [canonicalBlocks, sideNames]),
    h.canonicalPairs_taken (p := .responder) (by simp [canonicalBlocks, sideNames]),
    h.canonicalPairs_taken (p := .proto) (by simp [canonicalBlocks]), List.nil_append,
    List.append_nil]

theorem length_taken (h : Follows t b) {p : Phase} (hp : canonicalBlocks p ≠ []) :
    (t.taken b.room p).length ≤ blockSize p ∧
      (t.Supplied p ↔ blockSize p ≤ (t.taken b.room p).length) := by
  obtain ⟨ns, hns, hstart⟩ := h.block p hp
  have hle := hstart.length_le
  rw [(length_block p p.mem_all _ hns).1, List.length_map] at hle
  rw [h.supplied_iff p hp, mem_block_iff_length hns hstart, List.length_map]
  exact ⟨hle, Iff.rfl⟩

theorem whole_iff (h : Follows t b) :
    Whole b.pairs ↔ t.Supplied .originator ∧ t.Supplied .responder ∧ t.Supplied .proto := by
  have ho : canonicalBlocks .originator ≠ [] := by decide
  have hr : canonicalBlocks .responder ≠ [] := by decide
  have hp : canonicalBlocks .proto ≠ [] := by decide
  constructor
  · intro hwhole
    -- seven canonical pairs leave no name out
    have hlength := length_of_whole hwhole
    rw [h.canonicalPairs_eq, List.length_append, List.length_append] at hlength
    obtain ⟨hole, horig⟩ := h.length_taken ho
    obtain ⟨hrle, hresp⟩ := h.length_taken hr
    obtain ⟨hple, hproto⟩ := h.length_taken hp
    rw [horig, hresp, hproto]
    simp only [blockSize, reduceCtorEq, if_false, if_true] at hole hrle hple ⊢
    omega
  · rintro ⟨horig, hresp, hproto⟩
    rw [h.supplied_iff _ ho] at horig
    rw [h.supplied_iff _ hr] at hresp
    rw [h.supplied_iff _ hp] at hproto
    simp only [canonicalBlocks, List.mem_singleton] at hproto
    obtain ⟨⟨name, text⟩, htaken, rfl⟩ := List.map_eq_singleton_iff.mp hproto
    refine ⟨t.taken b.room .lead, t.taken b.room .originator, t.taken b.room .responder, text,
      t.taken b.room .kind, ?_, horig, hresp, fun q hq => ?_⟩
    · rw [h.pairs_append, htaken]
    · rcases List.mem_append.mp hq with hq | hq
      · exact h.ordinary .lead rfl q hq
      · exact h.ordinary .kind rfl q hq

theorem lost_iff_not_supplied (h : Follows t b) {p : Phase} (hp : canonicalBlocks p ≠ [])
    (hphase : p.rank ≤ b.phase.rank) : t.Lost p ↔ ¬t.Supplied p := by
  rw [h.lost_iff p hp, h.supplied_iff p hp]
  exact and_iff_right hphase

theorem reached_iff (h : Follows t b) {p : Phase} (hp : canonicalBlocks p ≠ []) :
    p.rank ≤ b.phase.rank ↔ t.Supplied p ∨ t.Lost p := by
  rw [h.lost_iff p hp, h.supplied_iff p hp]
  constructor
  · exact fun hphase => (Classical.em _).imp id fun hnot => ⟨hphase, hnot⟩
  · rintro (hblock | ⟨hphase, -⟩)
    · refine Nat.le_of_not_lt fun hahead => nil_not_mem_blocks p ?_
      rwa [h.ahead p hahead] at hblock
    · exact hphase

end Follows

/-- A build fails until a protocol was given in its place. One that succeeds has both sides and the
protocol whole exactly when all three were supplied, that is, when none of them was refused for
being no side or for a text that could not be made. -/
theorem build_whole_iff (room : Option Nat) (calls : List Call) :
    match ((start room).run calls).1.build.2 with
    | .error r =>
      (∃ missing, r = .incomplete missing) ∧
        ¬(traceOf room calls).Supplied .proto ∧ ¬(traceOf room calls).Lost .proto
    | .ok pairs =>
      ((traceOf room calls).Supplied .proto ∨ (traceOf room calls).Lost .proto) ∧
        (Whole pairs ↔
          ∀ p ∈ [Phase.originator, .responder, .proto], (traceOf room calls).Supplied p) ∧
        (Whole pairs ↔
          ∀ p ∈ [Phase.originator, .responder, .proto], ¬(traceOf room calls).Lost p) := by
  have h := follows_run room calls
  generalize ((start room).run calls).1 = b at h
  generalize traceOf room calls = t at h
  have hreached := h.reached_iff (p := .proto) (by decide)
  by_cases hphase : b.phase.rank < Phase.proto.rank
  · simp only [build, if_pos hphase]
    rw [← not_or, ← hreached]
    exact ⟨⟨_, rfl⟩, Nat.not_le.mpr hphase⟩
  · have hphase := Nat.le_of_not_lt hphase
    simp only [build, if_neg (Nat.not_lt.mpr hphase), List.forall_mem_cons, List.not_mem_nil,
      false_implies, implies_true, and_true]
    refine ⟨hreached.mp hphase, h.whole_iff, ?_⟩
    rw [h.whole_iff, h.lost_iff_not_supplied (by decide) (Nat.le_trans (by decide) hphase),
      h.lost_iff_not_supplied (by decide) (Nat.le_trans (by decide) hphase),
      h.lost_iff_not_supplied (by decide) hphase]
    simp only [Classical.not_not]

def oneSided : List Call :=
  [.originator .none, .responder (.endpoint (.address .unspecified) (.int 1) .none), .proto (.int 6)]

/-- The pairs built start with the responder. -/
theorem build_oneSided :
    ∃ pairs, ((start.run oneSided).1.build).2 = .ok pairs ∧ ¬Whole pairs := by
  refine ⟨[("resp_addr", "0.0.0.0"), ("resp_port", "1"), ("resp_country_code", "XX"),
    ("proto", "6")], by rfl, ?_⟩
  intro hwhole
  have hlength := length_of_whole hwhole
  revert hlength
  decide

end Detection.Builder
