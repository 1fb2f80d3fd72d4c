import Detection.Proofs.Builder.Order
import Detection.Proofs.Builder.Trace

/-! # The runs a builder takes without a refusal

Calls in order whose texts can be made are all taken, and each build answers with the pairs of the
calls before it. The first call out of order, or with a text that cannot be made, is the first one
refused.
-/

namespace Detection

def Value.isSide : Value → Bool
  | .endpoint _ _ _ | .multiPort _ _ _ | .group _ _ _ => true
  | _ => false

namespace Builder

def Call.HasSides : Call → Prop
  | .originator side | .responder side => side.isSide = true
  | _ => True

/-! ## Calls that are answered -/

theorem isSome_sideAttempts? (room : Option Nat) {label : String} {side : Value}
    (h : side.isSide = true) : (sideAttempts? room label side).isSome = true := by
  cases side <;> first | rfl | cases h

def Call.IsMade (room : Option Nat) (c : Call) : Prop := c.obstacle? room = none

/-- A call the builder does not refuse for its place or its name: a build is one from the protocol
on. -/
def Fits (b : Builder) (c : Call) : Prop :=
  Enters b c ∨ c = .build ∧ Phase.proto.rank ≤ b.phase.rank

theorem call_build {b : Builder} (h : Phase.proto.rank ≤ b.phase.rank) :
    b.call .build = (b, .ok (some b.pairs)) := by
  simp only [Builder.call, build, if_neg (Nat.not_lt.mpr h)]
  rfl

theorem isOk_call_iff {t : Trace} {b : Builder} (h : Follows t b) (c : Call) :
    (b.call c).2.isOk = true ↔ Fits b c ∧ c.IsMade b.room := by
  by_cases henters : Enters b c
  · obtain ⟨p, hp⟩ := henters.exists_phase
    rw [call_taken hp henters (h.enters_nodup hp henters), Call.IsMade,
      and_iff_right (show Fits b c from .inl henters)]
    cases c.obstacle? b.room <;> simp [answer, Except.isOk, Except.toBool]
  · rw [Fits, or_iff_right henters]
    have heffect := Follows.call_refused henters
    cases c with
    | build =>
      by_cases hp : Phase.proto.rank ≤ b.phase.rank
      · rw [call_build hp]
        exact iff_of_true rfl ⟨⟨rfl, hp⟩, rfl⟩
      · simp only [Builder.call, build, if_pos (Nat.lt_of_not_le hp)]
        exact iff_of_false (by simp [Except.map, Except.isOk, Except.toBool]) fun hb => hp hb.1.2
    | _ =>
      generalize b.call _ = out at heffect
      cases heffect with
      | taken hp enters => exact absurd enters henters
      | built hc ha => cases hc
      | refused hr hp => simp [Except.isOk, Except.toBool]
      | notSide hc hs hp hnone => simp [Except.isOk, Except.toBool]

/-! ## What a run without refusals leaves -/

theorem names_pairs {room : Option Nat} {c : Call} (h : c.IsMade room) :
    (c.pairs room).map Prod.fst = (c.attempts room).map Prod.fst :=
  names_made h

theorem ne_sideName {room : Option Nat} {p : Phase} {label : String}
    (hs : (p, label) ∈ sideLabels) {name : String} (hname : name ∉ canonicalNames) (side : Value) :
    name ∉ ((sideAttempts? room label side).getD []).map Prod.fst := by
  cases has : sideAttempts? room label side with
  | none => simp
  | some as =>
    intro hmem
    have hblock := names_of_sideAttempts? has
    simp only [sideLabels, List.mem_cons, Prod.mk.injEq, List.not_mem_nil, or_false] at hs
    rcases hs with ⟨rfl, rfl⟩ | ⟨rfl, rfl⟩
    · exact hname ((canonicalBlocks_nodup .originator (Phase.mem_all _) _ hblock).2 _ hmem)
    · exact hname ((canonicalBlocks_nodup .responder (Phase.mem_all _) _ hblock).2 _ hmem)

theorem mem_attempts_iff (room : Option Nat) (c : Call) {name : String}
    (hname : name ∉ canonicalNames) :
    name ∈ (c.attempts room).map Prod.fst ↔ c.name? = some name := by
  cases c with
  | lead n value absent | field n value absent => simp [Call.attempts, Call.name?, eq_comm]
  | originator side =>
    simpa [Call.attempts, Call.name?] using
      ne_sideName (p := .originator) (by simp [sideLabels]) hname side
  | responder side =>
    simpa [Call.attempts, Call.name?] using
      ne_sideName (p := .responder) (by simp [sideLabels]) hname side
  | proto value =>
    have hne : name ≠ "proto" := by
      rintro rfl
      exact hname (by decide)
    simpa [Call.attempts, Call.name?] using hne
  | build => simp [Call.attempts, Call.name?]

/-- The calls are in order, and every text they are to add can be made. -/
structure Clear (room : Option Nat) (calls : List Call) : Prop where
  inOrder : InOrder calls
  isMade : ∀ c ∈ calls, c.IsMade room

theorem clear_concat (room : Option Nat) (calls : List Call) (c : Call) :
    Clear room (calls ++ [c]) ↔ Clear room calls ∧ MayFollow calls c ∧ c.IsMade room := by
  constructor
  · rintro ⟨horder, hmade⟩
    obtain ⟨hbefore, hfollow⟩ := (inOrder_concat calls c).mp horder
    exact ⟨⟨hbefore, fun d hd => hmade d (List.mem_append_left _ hd)⟩, hfollow, hmade c (by simp)⟩
  · rintro ⟨⟨horder, hmade⟩, hfollow, hlast⟩
    refine ⟨(inOrder_concat calls c).mpr ⟨horder, hfollow⟩, fun d hd => ?_⟩
    rcases List.mem_append.mp hd with hd | hd
    · exact hmade d hd
    · exact (List.mem_singleton.mp hd) ▸ hlast

/-- The builder holds the pairs of all calls in their order, and stands in the phase of the last. -/
structure Keeps (calls : List Call) (b : Builder) : Prop where
  pairs_eq : b.pairs = calls.flatMap (Call.pairs b.room)
  names_eq : b.names = calls.flatMap fun c => (c.attempts b.room).map Prod.fst
  phase_eq : b.phase = phaseAfter calls
  proto_iff : (∃ value, .proto value ∈ calls) ↔ Phase.proto.rank ≤ b.phase.rank

theorem keeps_start (room : Option Nat) : Keeps [] (start room) where
  pairs_eq := rfl
  names_eq := rfl
  phase_eq := rfl
  proto_iff := by simp [start, Phase.rank]

namespace Keeps

variable {calls : List Call} {b : Builder} {c : Call}

theorem enters (h : Keeps calls b) {p : Phase} (hp : c.phase? = some p) (henters : Enters b c)
    (hmade : c.IsMade b.room) : Keeps (calls ++ [c]) (b.extend p (c.pairs b.room)) where
  pairs_eq := by simp [extend, h.pairs_eq]
  names_eq := by simp [extend, h.names_eq, names_pairs hmade]
  phase_eq := by simp [extend, phaseAfter_concat, hp]
  proto_iff := by
    have hold := h.proto_iff
    show _ ↔ Phase.proto.rank ≤ p.rank
    simp only [List.mem_append, List.mem_singleton, exists_or]
    cases c <;> cases hp
    case lead =>
      have hb : b.phase = .lead := henters.1
      rw [hold, hb]
      simp
    case originator =>
      have hb : b.phase = .lead := henters.1
      rw [hold, hb]
      simp [Phase.rank]
    case responder =>
      have hb : b.phase = .originator := henters.1
      rw [hold, hb]
      simp [Phase.rank]
    case proto => simp
    case field =>
      rw [hold]
      exact iff_of_true (.inl henters.1) (by decide)

theorem build (h : Keeps calls b) : Keeps (calls ++ [.build]) b where
  pairs_eq := by simp [h.pairs_eq, Call.pairs, Call.attempts, made]
  names_eq := by simp [h.names_eq, Call.attempts]
  phase_eq := by simp [h.phase_eq, phaseAfter_concat, Call.phase?]
  proto_iff := by simpa using h.proto_iff

theorem mem_names_iff (h : Keeps calls b) {name : String} (hname : name ∉ canonicalNames) :
    name ∈ b.names ↔ name ∈ calls.filterMap Call.name? := by
  rw [h.names_eq, List.mem_flatMap, List.mem_filterMap]
  exact exists_congr fun c => and_congr_right fun _ => mem_attempts_iff b.room c hname

theorem fits_iff (h : Keeps calls b) (hsides : c.HasSides) : Fits b c ↔ MayFollow calls c := by
  -- a free name is one that no earlier call gives
  have hfree (name : String) : name ∉ canonicalNames ∧ name ∉ b.names ↔
      name ∉ canonicalNames ∧ name ∉ calls.filterMap Call.name? :=
    and_congr_right fun hname => not_congr (h.mem_names_iff hname)
  constructor
  · rintro (henters | ⟨rfl, hp⟩)
    · cases c with
      | lead name value absent =>
        exact ⟨by simpa [Call.phase?, Next, ← h.phase_eq] using henters.1, by simp,
          by simpa [Call.name?] using (hfree name).mp henters.2⟩
      | originator side | responder side =>
        exact ⟨by simpa [Call.phase?, Next, ← h.phase_eq] using henters.1, by simp,
          by simp [Call.name?]⟩
      | proto value =>
        have hp : b.phase = .responder := henters
        exact ⟨by simpa [Call.phase?, Next, ← h.phase_eq] using hp, by simp, by simp [Call.name?]⟩
      | field name value absent =>
        exact ⟨by simpa [Call.phase?, ← h.phase_eq] using next_kind.mpr henters.1, by simp,
          by simpa [Call.name?] using (hfree name).mp henters.2⟩
      | build => cases henters
    · exact ⟨by simp [Call.phase?], fun _ => h.proto_iff.mpr hp, by simp [Call.name?]⟩
  · rintro ⟨hnext, hbuild, hname⟩
    rw [← h.phase_eq] at hnext
    cases c with
    | lead name value absent => exact .inl ⟨hnext _ rfl, (hfree name).mpr (hname _ rfl)⟩
    | originator side => exact .inl ⟨hnext _ rfl, isSome_sideAttempts? _ hsides⟩
    | responder side => exact .inl ⟨hnext _ rfl, isSome_sideAttempts? _ hsides⟩
    | proto value => exact .inl (hnext _ rfl)
    | field name value absent =>
      exact .inl ⟨next_kind.mp (hnext _ rfl), (hfree name).mpr (hname _ rfl)⟩
    | build => exact .inr ⟨rfl, h.proto_iff.mp (hbuild rfl)⟩

end Keeps

/-! ## Runs -/

theorem run_concat (b : Builder) (calls : List Call) (c : Call) :
    b.run (calls ++ [c]) =
      (((b.run calls).1.call c).1, (b.run calls).2 ++ [((b.run calls).1.call c).2]) := by
  induction calls generalizing b with
  | nil => rfl
  | cons d calls ih => simp only [List.cons_append, run, ih]

theorem length_answers (b : Builder) (calls : List Call) :
    (b.run calls).2.length = calls.length := by
  induction calls generalizing b with
  | nil => rfl
  | cons c calls ih => simp [run, ih]

theorem answers_take (b : Builder) (calls : List Call) (n : Nat) :
    (b.run (calls.take n)).2 = (b.run calls).2.take n := by
  induction calls generalizing b n with
  | nil => simp [run]
  | cons c calls ih =>
    cases n with
    | zero => rfl
    | succ n => simp [run, ih]

theorem keeps_call {calls : List Call} {b : Builder} {c : Call} (h : Keeps calls b) {t : Trace}
    (hfollows : Follows t b) (hfits : Fits b c) (hmade : c.IsMade b.room) :
    Keeps (calls ++ [c]) (b.call c).1 := by
  rcases hfits with henters | ⟨rfl, hp⟩
  · obtain ⟨p, hp⟩ := henters.exists_phase
    rw [call_taken hp henters (hfollows.enters_nodup hp henters)]
    exact h.enters hp henters hmade
  · rw [call_build hp]
    exact h.build

/-- A run is without refusals exactly when it is in order and its texts can be made. -/
theorem run_clear (room : Option Nat) {calls : List Call} (hsides : ∀ c ∈ calls, c.HasSides) :
    ((∀ a ∈ ((start room).run calls).2, a.isOk = true) ↔ Clear room calls) ∧
      (Clear room calls → Keeps calls ((start room).run calls).1) := by
  induction calls using List.reverseRecOn with
  | nil => exact ⟨iff_of_true (by simp [run]) ⟨inOrder_nil, by simp⟩, fun _ => keeps_start room⟩
  | append_singleton calls c ih =>
    obtain ⟨hanswers, hkeeps⟩ := ih fun d hd => hsides d (List.mem_append_left _ hd)
    have hside : c.HasSides := hsides c (by simp)
    have hfollows := follows_run room calls
    have hroom := room_run room calls
    rw [run_concat, clear_concat]
    simp only [List.mem_append, List.mem_singleton, or_imp, forall_and, forall_eq, hanswers,
      isOk_call_iff hfollows, hroom]
    refine ⟨and_congr_right fun hclear => and_congr_left fun _ => (hkeeps hclear).fits_iff hside, ?_⟩
    rintro ⟨hclear, hfollow, hmade⟩
    refine keeps_call (hkeeps hclear) hfollows (((hkeeps hclear).fits_iff hside).mpr hfollow) ?_
    rw [hroom]
    exact hmade

def FirstRefused (answers : List Answer) (i : Nat) : Prop :=
  (∃ r, answers[i]? = some (.error r)) ∧ ∀ a ∈ answers.take i, a.isOk = true

theorem firstRefused_iff (answers : List Answer) (i : Nat) :
    FirstRefused answers i ↔
      (∀ a ∈ answers.take i, a.isOk = true) ∧ ¬∀ a ∈ answers.take (i + 1), a.isOk = true := by
  unfold FirstRefused
  rw [and_comm]
  refine and_congr_right fun hbefore => ?_
  cases hi : answers[i]? with
  | none =>
    rw [List.take_of_length_le (Nat.le_succ_of_le (List.getElem?_eq_none_iff.mp hi))]
    rw [List.take_of_length_le (List.getElem?_eq_none_iff.mp hi)] at hbefore
    simpa using hbefore
  | some a =>
    rw [List.take_add_one, hi]
    cases a with
    | ok a => simpa [or_imp, forall_and, Except.isOk, Except.toBool] using hbefore
    | error r => simp [or_imp, forall_and, Except.isOk, Except.toBool]

theorem answer_at (b : Builder) (before after : List Call) (c : Call) :
    (b.run (before ++ c :: after)).2[before.length]? = some ((b.run before).1.call c).2 := by
  have htake : (before ++ c :: after).take (before.length + 1) = before ++ [c] := by
    simp [List.take_append, List.take_of_length_le]
  rw [← List.getElem?_take_of_lt (Nat.lt_succ_self before.length), ← answers_take, htake, run_concat]
  simp [length_answers]

theorem build_answer {room : Option Nat} {before after : List Call}
    (hsides : ∀ c ∈ before, c.HasSides) (hclear : Clear room (before ++ [.build])) :
    ((start room).run (before ++ .build :: after)).2[before.length]? =
      some (.ok (some (before.flatMap (Call.pairs room)))) := by
  obtain ⟨hbefore, hfollow, -⟩ := (clear_concat room before .build).mp hclear
  have hkeeps := (run_clear room hsides).2 hbefore
  have hproto := hkeeps.proto_iff.mp (hfollow.build rfl)
  rw [answer_at, call_build hproto, hkeeps.pairs_eq, room_run]

theorem names_of_side {room : Option Nat} (label : String) {side : Value}
    (h : side.isSide = true) :
    ((sideAttempts? room label side).getD []).map Prod.fst ∈ sideNames label := by
  have hsome : (sideAttempts? room label side).isSome = true := isSome_sideAttempts? room h
  obtain ⟨as, has⟩ := Option.isSome_iff_exists.mp hsome
  rw [has]
  exact names_of_sideAttempts? has

/-! ## How the first call is refused -/

theorem ne_nil_of_names {as : List Attempt} {label : String}
    (h : as.map Prod.fst ∈ sideNames label) : as ≠ [] := by
  rintro rfl
  cases length_sideNames h

theorem attempts_ne_nil {room : Option Nat} {c : Call} {p : Phase} (hside : c.HasSides)
    (hc : c.phase? = some p) : c.attempts room ≠ [] := by
  cases c with
  | lead | field | proto => simp [Call.attempts]
  | originator side => exact ne_nil_of_names (names_of_side "orig" hside)
  | responder side => exact ne_nil_of_names (names_of_side "resp" hside)
  | build => cases hc

theorem refused_of_isMade {b : Builder} {c : Call} {r : Refusal} (hside : c.HasSides)
    (hmade : c.IsMade b.room) (henters : ¬Enters b c) (hr : (b.call c).2 = .error r) :
    r.isLoss = false := by
  have hpairs {p : Phase} (hc : c.phase? = some p) : c.pairs b.room ≠ [] := by
    intro hnil
    have hnames := names_pairs hmade
    rw [hnil, List.map_nil, eq_comm, List.map_eq_nil_iff] at hnames
    exact attempts_ne_nil hside hc hnames
  have heffect := Follows.call_refused henters
  generalize b.call c = out at heffect hr
  cases heffect with
  | taken hp enters => exact absurd enters henters
  | built hc ha => exact ha r hr
  | refused hloss hp =>
    cases hr
    rw [Bool.eq_false_iff]
    intro h
    obtain ⟨hnil, q, hq, -⟩ := hloss h
    exact hpairs hq hnil
  | notSide hc hs hp hnone => exact absurd hnone (hpairs hc)

/-- How a call is refused behind calls that are not: for a text that it lacks where it may come
next, and for its place or its name where it has its texts. -/
theorem refused_after {room : Option Nat} {calls : List Call} {c : Call} {r : Refusal}
    (hclear : Clear room calls) (hsides : ∀ d ∈ calls, d.HasSides) (hside : c.HasSides)
    (hr : (((start room).run calls).1.call c).2 = .error r) :
    (MayFollow calls c → ∃ cause, c.obstacle? room = some cause ∧ r = .unmade cause) ∧
      (c.IsMade room → r.isLoss = false) := by
  have hfollows := follows_run room calls
  have hkeeps := (run_clear room hsides).2 hclear
  have hroom := room_run room calls
  generalize ((start room).run calls).1 = b at hr hfollows hkeeps hroom
  subst hroom
  have hfits := hkeeps.fits_iff hside
  have hok := isOk_call_iff hfollows c
  rw [hr] at hok
  constructor
  · intro hfollow
    cases hcause : c.obstacle? b.room with
    | none => cases hok.mpr ⟨hfits.mpr hfollow, hcause⟩
    | some cause =>
      rcases hfits.mpr hfollow with henters | ⟨rfl, -⟩
      · obtain ⟨p, hp⟩ := henters.exists_phase
        rw [call_taken hp henters (hfollows.enters_nodup hp henters), hcause] at hr
        cases hr
        exact ⟨cause, rfl, rfl⟩
      · cases hcause
  · intro hmade
    refine refused_of_isMade hside hmade (fun henters => ?_) hr
    cases hok.mpr ⟨.inl henters, hmade⟩

/-- Calls with proper sides are all taken exactly when they are in order and their texts can be made.
The first one refused is the first out of order or without a text: if it is in order the text was
lacking, and if the texts were there it is not in order. Up to there each build answers with the pairs
of all calls before it, three for each side. -/
theorem answers_inOrder (room : Option Nat) {calls : List Call} (hsides : ∀ c ∈ calls, c.HasSides) :
    ((∀ a ∈ ((start room).run calls).2, a.isOk = true) ↔ Clear room calls) ∧
      (∀ i, FirstRefused ((start room).run calls).2 i ↔
        Clear room (calls.take i) ∧ ¬Clear room (calls.take (i + 1))) ∧
      (∀ before c after r, calls = before ++ c :: after → Clear room before →
        ((start room).run calls).2[before.length]? = some (.error r) →
          (InOrder (before ++ [c]) → ∃ cause, c.obstacle? room = some cause ∧ r = .unmade cause) ∧
            (c.IsMade room → ∀ cause, r ≠ .unmade cause)) ∧
      (∀ before after, calls = before ++ .build :: after → Clear room (before ++ [.build]) →
        ((start room).run calls).2[before.length]? =
          some (.ok (some (before.flatMap (Call.pairs room))))) ∧
      ∀ side, side.isSide = true →
        ((Call.originator side).IsMade room →
          ((Call.originator side).pairs room).map Prod.fst ∈ sideNames "orig") ∧
        ((Call.responder side).IsMade room →
          ((Call.responder side).pairs room).map Prod.fst ∈ sideNames "resp") := by
  -- the calls of a prefix are answered as in the whole run
  have htake (n : Nat) : (∀ a ∈ ((start room).run calls).2.take n, a.isOk = true) ↔
      Clear room (calls.take n) := by
    rw [← answers_take]
    exact (run_clear room fun c hc => hsides c (List.mem_of_mem_take hc)).1
  refine ⟨(run_clear room hsides).1, fun i => ?_, ?_, ?_, fun side hside => ⟨fun hmade => ?_,
    fun hmade => ?_⟩⟩
  · rw [firstRefused_iff, htake, htake]
  · rintro before c after r rfl hclear hr
    rw [answer_at, Option.some_inj] at hr
    obtain ⟨hunmade, hplace⟩ := refused_after hclear
      (fun d hd => hsides d (List.mem_append_left _ hd)) (hsides c (by simp)) hr
    refine ⟨fun horder => hunmade ((inOrder_concat before c).mp horder).2, ?_⟩
    rintro hmade cause rfl
    cases hplace hmade
  · rintro before after rfl hclear
    exact build_answer (fun c hc => hsides c (List.mem_append_left _ hc)) hclear
  · rw [names_pairs hmade]
    exact names_of_side "orig" hside
  · rw [names_pairs hmade]
    exact names_of_side "resp" hside

def fullRun : List Call :=
  [.lead "sensor" (.text "s1") none,
    .originator (.endpoint (.address .unspecified) (.int 80) .none),
    .responder (.multiPort (.address .unspecified) [.int 22] .none), .proto (.int 6), .build,
    .field "extra" (.int 1) none, .build]

theorem clear_fullRun : (∀ c ∈ fullRun, c.HasSides) ∧ Clear (some Excess.usualRoom) fullRun := by
  have hsides : ∀ c ∈ fullRun, c.HasSides := by simp [fullRun, Call.HasSides, Value.isSide]
  exact ⟨hsides, (answers_inOrder _ hsides).1.mp (by decide +kernel)⟩

def bothSides : List Call :=
  [.originator (.endpoint (.address .unspecified) (.int 80) .none),
    .responder (.endpoint (.address .unspecified) (.int 22) .none)]

theorem answers_longProto {room : Option Nat} {n : Int} (hn : Excess.isLong n = true)
    (hsides : ((start room).run bothSides).1.phase = .responder) :
    ((start room).run (bothSides ++ [.proto (.int n)])).2 =
      ((start room).run bothSides).2 ++ [.error (.unmade .digits)] := by
  have hfollows := follows_run room bothSides
  have henters : Enters ((start room).run bothSides).1 (.proto (.int n)) := hsides
  rw [run_concat, call_taken rfl henters (hfollows.enters_nodup rfl henters)]
  simp [Call.obstacle?, Call.attempts, Value.format, Value.renderedExcess?, Value.displayExcess?,
    Value.literalExcess?, Value.excess?, hn, obstacle?, answer]

def longProto : List Call := bothSides ++ [.proto (.int (10 ^ Excess.maxDigits))]

def deepLead : List Call :=
  [.lead "sensor" (Value.nested 238 (.score (.int 0) (Value.nested 59 (.list [])))) none]

/-- Both runs are in order, and in both the last call is refused. -/
theorem unmade_inOrder :
    (InOrder longProto ∧ ((start (some Excess.usualRoom)).run longProto).2 =
      [.ok none, .ok none, .error (.unmade .digits)]) ∧
    (InOrder deepLead ∧ ((start (some Excess.usualRoom)).run deepLead).2 =
      [.error (.unmade (.calls " while getting the repr of an object"))]) := by
  have hbuilds {calls : List Call} (h : Call.build ∉ calls) :
      ∀ before after, calls = before ++ .build :: after → ∃ value, .proto value ∈ before := by
    rintro before after rfl
    simp at h
  refine ⟨⟨⟨⟨0, 0, by decide +kernel⟩, hbuilds ?_, by decide +kernel, by decide +kernel⟩, ?_⟩,
    ⟨⟨⟨1, 0, by decide +kernel⟩, hbuilds ?_, by decide +kernel, by decide +kernel⟩,
      by decide +kernel⟩⟩
  · simp [longProto, bothSides]
  · rw [longProto, answers_longProto Excess.isLong_ten_pow (by decide +kernel)]
    decide +kernel
  · simp [deepLead]

end Builder

end Detection
