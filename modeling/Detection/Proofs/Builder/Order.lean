import Mathlib.Data.List.Chain
import Detection.Proofs.Builder.Taken

/-! # Calls in order

Leading fields, the originator, the responder, the protocol, then further fields: what is in order
is said of whole runs here, and taken apart at the last call.
-/

namespace Detection

namespace Builder

/-! ## Runs in order -/

/-- The phases of a full run: leading fields, both sides, the protocol and further fields. -/
def sentence (leads fields : Nat) : List Phase :=
  List.replicate leads .lead ++ [.originator, .responder, .proto] ++ List.replicate fields .kind

def Call.name? : Call → Option String
  | .lead name _ _ | .field name _ _ => some name
  | _ => none

/-- The calls but for the builds are the start of a full run, the builds come after the protocol,
and the names given are new and ordinary. -/
structure InOrder (calls : List Call) : Prop where
  start_of_sentence : ∃ leads fields, calls.filterMap Call.phase? <+: sentence leads fields
  builds : ∀ before after, calls = before ++ .build :: after → ∃ value, .proto value ∈ before
  distinct : (calls.filterMap Call.name?).Nodup
  ordinary : ∀ name ∈ calls.filterMap Call.name?, name ∉ canonicalNames

/-! ## Sentences, one phase after the other -/

def Next (p : Phase) : Phase → Prop
  | .lead | .originator => p = .lead
  | .responder => p = .originator
  | .proto => p = .responder
  | .kind => p = .proto ∨ p = .kind

def remainder (p : Phase) (leads fields : Nat) : List Phase :=
  match p with
  | .lead => sentence leads fields
  | .originator => [.responder, .proto] ++ List.replicate fields .kind
  | .responder => [.proto] ++ List.replicate fields .kind
  | .proto | .kind => List.replicate fields .kind

theorem cons_prefix_remainder {p q : Phase} {ps : List Phase} :
    (∃ leads fields, q :: ps <+: remainder p leads fields) ↔
      Next p q ∧ ∃ leads fields, ps <+: remainder q leads fields := by
  constructor
  · rintro ⟨leads, fields, h⟩
    -- by what is still to come
    cases p with
    | lead =>
      cases leads with
      | zero =>
        obtain ⟨rfl, hrest⟩ := List.cons_prefix_cons.mp h
        exact ⟨rfl, 0, fields, hrest⟩
      | succ leads =>
        obtain ⟨rfl, hrest⟩ := List.cons_prefix_cons.mp h
        exact ⟨rfl, leads, fields, hrest⟩
    | originator =>
      obtain ⟨rfl, hrest⟩ := List.cons_prefix_cons.mp h
      exact ⟨rfl, leads, fields, hrest⟩
    | responder =>
      obtain ⟨rfl, hrest⟩ := List.cons_prefix_cons.mp h
      exact ⟨rfl, leads, fields, hrest⟩
    | proto | kind =>
      cases fields with
      | zero => simp [remainder] at h
      | succ fields =>
        obtain ⟨rfl, hrest⟩ := List.cons_prefix_cons.mp h
        exact ⟨by simp [Next], leads, fields, hrest⟩
  · rintro ⟨hnext, leads, fields, h⟩
    -- by the phase taken
    cases q with
    | lead =>
      obtain rfl : p = .lead := hnext
      exact ⟨leads + 1, fields, List.cons_prefix_cons.mpr ⟨rfl, h⟩⟩
    | originator =>
      obtain rfl : p = .lead := hnext
      exact ⟨0, fields, List.cons_prefix_cons.mpr ⟨rfl, h⟩⟩
    | responder =>
      obtain rfl : p = .originator := hnext
      exact ⟨leads, fields, List.cons_prefix_cons.mpr ⟨rfl, h⟩⟩
    | proto =>
      obtain rfl : p = .responder := hnext
      exact ⟨leads, fields, List.cons_prefix_cons.mpr ⟨rfl, h⟩⟩
    | kind =>
      have h : Phase.kind :: ps <+: List.replicate (fields + 1) .kind :=
        List.cons_prefix_cons.mpr ⟨rfl, h⟩
      rcases hnext with rfl | rfl
      · exact ⟨leads, fields + 1, h⟩
      · exact ⟨leads, fields + 1, h⟩

theorem isChain_iff (p : Phase) (ps : List Phase) :
    List.IsChain Next (p :: ps) ↔ ∃ leads fields, ps <+: remainder p leads fields := by
  induction ps generalizing p with
  | nil => simp
  | cons q ps ih => rw [List.isChain_cons_cons, ih, cons_prefix_remainder]

/-- The phase a run of calls leaves its builder in when none is refused. -/
def phaseAfter (calls : List Call) : Phase :=
  ((calls.filterMap Call.phase?).getLast?).getD .lead

theorem phaseAfter_concat (calls : List Call) (c : Call) :
    phaseAfter (calls ++ [c]) = c.phase?.getD (phaseAfter calls) := by
  cases hc : c.phase? <;> simp [phaseAfter, List.filterMap_append, hc]

theorem start_of_sentence_concat (calls : List Call) (c : Call) :
    (∃ leads fields, (calls ++ [c]).filterMap Call.phase? <+: sentence leads fields) ↔
      (∃ leads fields, calls.filterMap Call.phase? <+: sentence leads fields) ∧
        ∀ p ∈ c.phase?, Next (phaseAfter calls) p := by
  have hchain (ps : List Phase) := isChain_iff .lead ps
  simp only [remainder] at hchain
  rw [← hchain, ← hchain, List.filterMap_append, ← List.cons_append, List.isChain_append]
  have hlast : (Phase.lead :: calls.filterMap Call.phase?).getLast? = some (phaseAfter calls) := by
    rw [List.getLast?_cons, phaseAfter]
  rw [hlast]
  cases hc : c.phase? <;> simp [hc]

theorem next_kind {p : Phase} : Next p .kind ↔ Phase.proto.rank ≤ p.rank := by
  cases p <;> simp [Next, Phase.rank]

/-! ## One more call -/

structure MayFollow (calls : List Call) (c : Call) : Prop where
  next : ∀ p ∈ c.phase?, Next (phaseAfter calls) p
  build : c = .build → ∃ value, .proto value ∈ calls
  fresh : ∀ name ∈ c.name?, name ∉ canonicalNames ∧ name ∉ calls.filterMap Call.name?

theorem inOrder_nil : InOrder [] where
  start_of_sentence := ⟨0, 0, List.nil_prefix⟩
  builds := by simp
  distinct := List.nodup_nil
  ordinary := by simp

theorem builds_concat (calls : List Call) (c : Call) :
    (∀ before after, calls ++ [c] = before ++ .build :: after → ∃ value, .proto value ∈ before) ↔
      (∀ before after, calls = before ++ .build :: after → ∃ value, .proto value ∈ before) ∧
        (c = .build → ∃ value, .proto value ∈ calls) := by
  constructor
  · intro h
    refine ⟨fun before after heq => h before (after ++ [c]) (by simp [heq]), ?_⟩
    rintro rfl
    exact h calls [] rfl
  · rintro ⟨hbefore, hlast⟩ before after heq
    cases after using List.reverseRecOn with
    | nil =>
      obtain ⟨rfl, hc⟩ := List.append_inj' heq rfl
      exact hlast (List.singleton_inj.mp hc)
    | append_singleton after last =>
      rw [← List.cons_append, ← List.append_assoc] at heq
      exact hbefore before after (List.append_inj' heq rfl).1

theorem inOrder_concat (calls : List Call) (c : Call) :
    InOrder (calls ++ [c]) ↔ InOrder calls ∧ MayFollow calls c := by
  have hnames : ((calls ++ [c]).filterMap Call.name?) =
      calls.filterMap Call.name? ++ c.name?.toList := by
    rw [List.filterMap_append]
    cases hc : c.name? <;> simp [hc]
  constructor
  · rintro ⟨hsentence, hbuilds, hdistinct, hordinary⟩
    rw [start_of_sentence_concat] at hsentence
    rw [builds_concat] at hbuilds
    rw [hnames] at hdistinct hordinary
    obtain ⟨hnodup, -, hapart⟩ := List.nodup_append.mp hdistinct
    refine ⟨⟨hsentence.1, hbuilds.1, hnodup, fun n hn => hordinary n (List.mem_append_left _ hn)⟩,
      ⟨hsentence.2, hbuilds.2, fun n hn => ?_⟩⟩
    have hn : n ∈ c.name?.toList := Option.mem_toList.mpr hn
    exact ⟨hordinary n (List.mem_append_right _ hn), fun htaken => hapart n htaken n hn rfl⟩
  · rintro ⟨⟨hsentence, hbuilds, hdistinct, hordinary⟩, hnext, hbuild, hfresh⟩
    refine ⟨(start_of_sentence_concat calls c).mpr ⟨hsentence, hnext⟩,
      (builds_concat calls c).mpr ⟨hbuilds, hbuild⟩, ?_, ?_⟩
    · rw [hnames, List.nodup_append]
      refine ⟨hdistinct, by cases c.name? <;> simp, ?_⟩
      rintro n htaken m hm rfl
      exact (hfresh n (Option.mem_toList.mp hm)).2 htaken
    · intro n hn
      rw [hnames, List.mem_append, Option.mem_toList] at hn
      exact hn.elim (hordinary n) fun hn => (hfresh n hn).1

end Builder

end Detection
