import Detection.Proofs.Builder.Answers
import Detection.Proofs.Builder.Whole

/-! # What one call does at any point of a run

A call that is refused for its place, its name or its value adds nothing, even where it moves the
builder on. A call that is answered puts its own pairs behind those that are there, all of them; one
that lacks a text puts the pairs before it there and no more. So the pairs are at every moment those
of the calls so far, and the canonical ones among them stand in their places.
-/

namespace Detection

namespace Builder

/-- The names a call may give its pairs: three for a side, whatever it is made of. -/
def Call.ownNames : Call → List (List String)
  | .lead name _ _ | .field name _ _ => [[name]]
  | .originator _ => sideNames "orig"
  | .responder _ => sideNames "resp"
  | .proto _ => [["proto"]]
  | .build => [[]]

/-- The pairs of the calls that were answered, or lacked a text, in the order of the calls. -/
def Trace.added (room : Option Nat) (t : Trace) : List Pair :=
  t.flatMap fun (c, a) => if keepsPairs a then c.pairs room else []

structure Steps (b : Builder) (c : Call) (b' : Builder) (a : Answer) : Prop where
  phase_le : b.phase.rank ≤ b'.phase.rank
  refused : ∀ r, a = .error r → (∀ cause, r ≠ .unmade cause) →
    b'.pairs = b.pairs ∧ b'.names = b.names
  unmade : ∀ cause, a = .error (.unmade cause) → b'.pairs = b.pairs ++ c.pairs b.room ∧
    b'.names = b.names ++ (c.pairs b.room).map Prod.fst ∧
      ∃ ns ∈ c.ownNames, (c.pairs b.room).map Prod.fst <+: ns ∧ (c.pairs b.room).map Prod.fst ≠ ns
  answered : ∀ x, a = .ok x → b'.pairs = b.pairs ++ c.pairs b.room ∧
    b'.names = b.names ++ (c.pairs b.room).map Prod.fst ∧
      (c.pairs b.room).map Prod.fst ∈ c.ownNames

/-- The sides and the protocol, each whole or cut short, stand in their order between the leading
pairs and the further ones. -/
def InPlace (room : Option Nat) (t : Trace) (pairs : List Pair) : Prop :=
  ∃ originator responder proto,
    pairs = t.taken room .lead ++ originator ++ responder ++ proto ++ t.taken room .kind ∧
      (∃ ns ∈ sideNames "orig", originator.map Prod.fst <+: ns) ∧
      (∃ ns ∈ sideNames "resp", responder.map Prod.fst <+: ns) ∧
      proto.map Prod.fst <+: ["proto"] ∧
      ∀ q ∈ t.taken room .lead ++ t.taken room .kind, q.1 ∉ canonicalNames

structure Tidy (room : Option Nat) (t : Trace) (b : Builder) : Prop where
  pairs_eq : b.pairs = t.added room
  names_eq : b.names = b.pairs.map Prod.fst
  nodup : (b.pairs.map Prod.fst).Nodup
  inPlace : InPlace room t b.pairs

/-! ## One call -/

theorem names_of_enters {b : Builder} {c : Call} (h : Enters b c) :
    (c.attempts b.room).map Prod.fst ∈ c.ownNames := by
  cases c with
  | lead name value absent | field name value absent => simp [Call.attempts, Call.ownNames]
  | proto value => simp [Call.attempts, Call.ownNames]
  | originator side | responder side =>
    obtain ⟨as, has⟩ := Option.isSome_iff_exists.mp h.2
    simp only [Call.attempts, has, Option.getD_some]
    exact names_of_sideAttempts? has
  | build => cases h

theorem ownNames_of_ordinary {c : Call} {p : Phase} (hc : c.phase? = some p)
    (hp : canonicalBlocks p = []) : ∃ name, c.ownNames = [[name]] := by
  cases c with
  | lead name value absent | field name value absent => exact ⟨name, rfl⟩
  | originator | responder | proto =>
    cases hc
    cases hp
  | build => cases hc

/-- A call that comes in its place adds all of its pairs, or those before the text that it lacks. -/
theorem steps_taken {b : Builder} {c : Call} {p : Phase} (hc : c.phase? = some p)
    (henters : Enters b c) :
    Steps b c (b.extend p (c.pairs b.room)) (answer none (c.obstacle? b.room)) := by
  have hnames := names_of_enters henters
  refine ⟨Follows.rank_le_of_enters hc henters, fun r hr hcause => ?_, fun cause hr => ⟨rfl, rfl, ?_⟩,
    fun x hx => ⟨rfl, rfl, ?_⟩⟩
  · cases hobstacle : c.obstacle? b.room with
    | none => simp [hobstacle, answer] at hr
    | some cause => simp [hobstacle, answer, eq_comm, hcause] at hr
  · cases hobstacle : c.obstacle? b.room with
    | none => simp [hobstacle, answer] at hr
    | some cause =>
      refine ⟨_, hnames, names_made_prefix _, fun heq => ?_⟩
      have hlt := length_made_lt hobstacle
      have hlength := congrArg List.length heq
      rw [List.length_map, List.length_map, Call.pairs] at hlength
      omega
  · rw [names_pairs (answer_ok_iff.mp ⟨x, hx⟩)]
    exact hnames

namespace Follows

variable {t : Trace} {b : Builder}

theorem steps_call (h : Follows t b) (c : Call) : Steps b c (b.call c).1 (b.call c).2 := by
  have heffect := h.call_effect c
  generalize b.call c = out at heffect
  cases heffect with
  | taken hp henters => exact steps_taken hp henters
  | built hc ha =>
    subst hc
    refine ⟨Nat.le_refl _, fun _ _ _ => ⟨rfl, rfl⟩, fun cause hr => ?_, fun _ _ => ?_⟩
    · cases ha _ hr
    · simp [Call.pairs, Call.attempts, made, Call.ownNames]
  | refused hr hp =>
    refine ⟨?_, fun _ _ _ => ⟨rfl, rfl⟩, fun cause hcause => ?_, fun _ h => by cases h⟩
    · rcases hp with rfl | ⟨-, rfl⟩
      · exact Nat.le_refl _
      · exact b.phase.rank_le_kind
    · cases hcause
      obtain ⟨hnil, q, hq, hordinary⟩ := hr rfl
      obtain ⟨name, hname⟩ := ownNames_of_ordinary hq hordinary
      simp [hnil, hname]
  | notSide hc hs hp hnone =>
    exact ⟨Nat.le_of_succ_le hp.le, fun _ _ _ => ⟨rfl, rfl⟩, fun _ h => (by cases h),
      fun _ h => by cases h⟩

theorem inPlace (h : Follows t b) : InPlace b.room t b.pairs := by
  refine ⟨_, _, _, h.pairs_append, h.block .originator (by decide), h.block .responder (by decide),
    ?_, fun q hq => ?_⟩
  · simpa [canonicalBlocks] using h.block .proto (by decide)
  · rcases List.mem_append.mp hq with hq | hq
    · exact h.ordinary .lead rfl q hq
    · exact h.ordinary .kind rfl q hq

end Follows

/-! ## Runs -/

theorem traceOf_concat (room : Option Nat) (calls : List Call) (c : Call) :
    traceOf room (calls ++ [c]) =
      traceOf room calls ++ [(c, (((start room).run calls).1.call c).2)] := by
  rw [traceOf, run_concat, List.zip_append (length_answers (start room) calls).symm]
  rfl

theorem pairs_run (room : Option Nat) (calls : List Call) :
    ((start room).run calls).1.pairs = (traceOf room calls).added room := by
  induction calls using List.reverseRecOn with
  | nil => rfl
  | append_singleton calls c ih =>
    have hsteps := (follows_run room calls).steps_call c
    rw [traceOf_concat, Trace.added, List.flatMap_append, List.flatMap_singleton, run_concat]
    change _ = (traceOf room calls).added room ++ _
    rw [← ih]
    have hroom := room_run room calls
    cases ha : (((start room).run calls).1.call c).2 with
    | error r =>
      by_cases hcause : ∃ cause, r = .unmade cause
      · obtain ⟨cause, rfl⟩ := hcause
        simpa [keepsPairs, hroom] using (hsteps.unmade cause ha).1
      · have hkeep : keepsPairs (.error r) = false := by
          cases r <;> first | rfl | exact absurd ⟨_, rfl⟩ hcause
        simpa [hkeep] using (hsteps.refused r ha fun cause heq => hcause ⟨cause, heq⟩).1
    | ok x => simpa [keepsPairs, hroom] using (hsteps.answered x ha).1

/-- Whatever was called before, a call that is refused for its place, its name or its value adds no
pair and no name, one that lacks a text adds the pairs before it, one that is answered adds its own
pairs behind the others, and no call moves the builder back. The names kept are those of the pairs,
each of which there is once, with the canonical ones in their places. -/
theorem run_stepwise (room : Option Nat) (calls : List Call) (c : Call) :
    ∃ a, ((start room).run (calls ++ [c])).2 = ((start room).run calls).2 ++ [a] ∧
      Steps ((start room).run calls).1 c ((start room).run (calls ++ [c])).1 a ∧
      Tidy room (traceOf room (calls ++ [c])) ((start room).run (calls ++ [c])).1 := by
  have hfollows := follows_run room (calls ++ [c])
  have hnodup := hfollows.nodup
  have hinPlace := hfollows.inPlace
  rw [hfollows.names_eq] at hnodup
  rw [room_run] at hinPlace
  refine ⟨(((start room).run calls).1.call c).2, by rw [run_concat], ?_,
    ⟨pairs_run room _, hfollows.names_eq, hnodup, hinPlace⟩⟩
  rw [run_concat]
  exact (follows_run room calls).steps_call c

/-- A group whose port is too deep for a text: its call fails, and the addresses stay. -/
def deepGroup : Call :=
  .originator (.group [.address .unspecified]
    [Value.nested 238 (.score (.int 0) (Value.nested 59 (.list [])))] [.none])

theorem pairs_deepGroup :
    let b := start (some Excess.usualRoom)
    (b.call deepGroup).2 = .error (.unmade (.calls " while getting the repr of an object")) ∧
      (b.call deepGroup).1.pairs = [("orig_addrs", "[0.0.0.0]")] := by
  decide +kernel

end Builder

end Detection
