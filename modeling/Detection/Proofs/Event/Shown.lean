import Detection.Proofs.Builder.Taken
import Detection.Proofs.Event.Made

/-! # The pairs of a loaded event

Every field but the time has one pair. Its label is the field's, and its text depends on the value of
that field alone.
-/

namespace Detection

open FieldType (Admits)

/-! ## Fields and their slots -/

namespace Field

def label (f : Field) : String := if f.name = "from_" then "from" else f.name

/-- The payloads shown as hexadecimal numbers: hardware addresses and client ids. -/
def hexNames : List String := ["chaddr", "class_id", "client_id"]

def shown (f : Field) : Shown :=
  match f.type with
  | .payload => if f.name ∈ hexNames then .colonHex else .plain
  | .sequence .command => .commandLine
  | .sequence .textPair => .credentials
  | _ => .plain

def slot (f : Field) : Slot := ⟨f.label, f.name, f.shown⟩

end Field

/-- A kind's layout shows the fields the kind declares, each once, in the order they are declared. -/
theorem Kind.layout_eq : ∀ k ∈ registered, k.layout = k.details.map Field.slot := by
  decide

/-! ## The fields that are shown -/

namespace Fields

def category : Field := { name := "category", type := .category, default := some .none }

def sensor : Field := .required .text "sensor"

def proto : Field := .required .integer "proto"

def confidence : Field := .required .number "confidence"

def triageScores : Field := .optional (.sequence .score) "triage_scores"

theorem core_eq : core = [.time "time", sensor, proto, confidence, category, triageScores] := rfl

end Fields

namespace Kind

/-- The fields behind the protocol. -/
def laterFields (k : Kind) : List Field := k.details ++ [Fields.confidence, Fields.triageScores]

def shownFields (k : Kind) : List Field :=
  [Fields.category, Fields.sensor] ++ k.sideFields ++ [Fields.proto] ++ k.laterFields

theorem mem_fields_iff {k : Kind} {f : Field} :
    f ∈ k.fields ↔ f = .time "time" ∨ f ∈ k.shownFields := by
  simp only [fields, shownFields, laterFields, Fields.core_eq, List.mem_append, List.mem_cons,
    List.not_mem_nil, or_false]
  grind

theorem sideFields_shown {k : Kind} {s : Sides} (hs : k.sides? = some s) :
    ∀ f ∈ s.fields, f ∈ k.shownFields := by
  intro f hf
  simp [shownFields, sideFields, hs, hf]

theorem shownLabels_spelled {k : Kind} (hk : k ∈ registered) {f : Field}
    (hf : f ∈ k.shownFields) : f.label.toList.all isNameChar = true := by
  have hname := List.mem_map_of_mem (f := Field.name) (mem_fields_iff.mpr (.inr hf))
  unfold Field.label
  split
  · decide
  · exact (fieldNames_spelled k hk _ hname).1

theorem shownLabels_nodup : ∀ k ∈ registered, (k.shownFields.map Field.label).Nodup := by
  decide +kernel

theorem laterLabels_ordinary :
    ∀ k ∈ registered, ∀ f ∈ k.laterFields, f.label ∉ Builder.canonicalNames := by
  decide

end Kind

/-- Types whose values have another text than in a side or in front of the sides. -/
def FieldType.isSpecial (t : FieldType) : Bool :=
  t = .category || t = .country || t = .sequence .country

namespace Kind

theorem laterFields_ordinary :
    ∀ k ∈ registered, ∀ f ∈ k.laterFields, f.type.isSpecial = false := by decide

end Kind

namespace Event

/-! ## The text of one field -/

/-- The text of a value, or of what stands for its absence. -/
def textOr (absent : String) : Value → String
  | .none => Text.bare absent
  | v => v.rendered

theorem text_eq_ok {v : Value} (h : v.renderedExcess? none = none) (absent : String) :
    Builder.text none v (some absent) = .ok (textOr absent v) := by
  cases v <;> first | rfl | exact Value.format_eq_ok h

theorem text_none (room : Option Nat) (v : Value) : Builder.text room v none = v.format room := by
  cases v <;> rfl

def shownText (f : Field) (v : Value) : Except RenderError String :=
  match f.type with
  | .category => .ok (textOr uncategorised v)
  | .country => .ok (Text.bare (Country.decode v))
  | .sequence .country => do
    let codes ← parts v
    pure (bracketed ((Country.decodeAll codes).map Text.bare))
  | _ => Value.rendered <$> shownValue f.shown v

theorem shownText_ordinary {f : Field} (h : f.type.isSpecial = false) (v : Value) :
    shownText f v = Value.rendered <$> shownValue f.shown v := by
  unfold shownText
  split
  · rename_i ht
    simp [FieldType.isSpecial, ht] at h
  · rename_i ht
    simp [FieldType.isSpecial, ht] at h
  · rename_i ht
    simp [FieldType.isSpecial, ht] at h
  · rfl

theorem shownText_plain {f : Field} (hspecial : f.type.isSpecial = false)
    (hshown : f.shown = .plain) (v : Value) : shownText f v = .ok v.rendered := by
  rw [shownText_ordinary hspecial, hshown]
  rfl

theorem hexParts_bytes (bs : List UInt8) :
    ∃ ps, (bs.map fun b => Value.int b.toNat).mapM hexPart = .ok ps := by
  refine ⟨bs.map fun b => hexNumber b.toNat, mapM_ok.mpr ?_⟩
  simp [hexPart]

theorem credential_textPair {v : Value} (h : Admits .textPair v) :
    ∃ s, credential v = .ok (.text s) := by
  cases h with
  | textPair a b => exact ⟨_, rfl⟩

theorem credentials_of_admits {v : Value} (h : Admits (.sequence .textPair) v) :
    ∃ texts : List String, credentials v = .ok (.list (texts.map .text)) := by
  cases h with
  | sequence hvs =>
    rename_i vs
    have htexts : ∃ texts : List String, vs.map credential = (texts.map .text).map .ok := by
      induction vs with
      | nil => exact ⟨[], rfl⟩
      | cons v vs ih =>
        obtain ⟨s, hs⟩ := credential_textPair (hvs v List.mem_cons_self)
        obtain ⟨texts, htexts⟩ := ih fun w hw => hvs w (List.mem_cons_of_mem _ hw)
        exact ⟨s :: texts, by rw [List.map_cons, htexts, hs]; rfl⟩
    obtain ⟨texts, htexts⟩ := htexts
    exact ⟨texts, bind_ok.mpr ⟨vs, rfl, bind_ok.mpr ⟨_, mapM_ok.mpr htexts, rfl⟩⟩⟩

theorem displayed_of_admits {t : FieldType} {v : Value} (h : t.Admits v) :
    displayed v = .ok v.display := by
  rw [displayed, Value.displayed, h.displayExcess?]
  rfl

theorem commandLine_of_admits {vs : List Value} (h : ∀ v ∈ vs, Admits .command v) :
    commandLine (.tuple vs) = .ok (.text (Text.joinTexts ";" (vs.map Value.display))) := by
  refine bind_ok.mpr ⟨vs, rfl, bind_ok.mpr ⟨vs.map Value.display, mapM_ok.mpr ?_, rfl⟩⟩
  rw [List.map_map]
  exact List.map_congr_left fun v hv => displayed_of_admits (h v hv)

theorem shownValue_cases {f : Field} {v : Value} (h : f.type.Admits v) :
    shownValue f.shown v = .ok v ∨ (∃ s, shownValue f.shown v = .ok (.text s)) ∨
      ∃ texts : List String, shownValue f.shown v = .ok (.list (texts.map .text)) := by
  unfold Field.shown
  split
  · rename_i ht
    split
    · rw [ht] at h
      cases h with
      | payload bs =>
        obtain ⟨ps, hps⟩ := hexParts_bytes bs
        exact .inr (.inl ⟨_, bind_ok.mpr ⟨_, rfl, bind_ok.mpr ⟨ps, hps, rfl⟩⟩⟩)
    · exact .inl rfl
  · rename_i ht
    rw [ht] at h
    obtain ⟨cs, rfl, hcs, -⟩ := items?_of_admits h
    exact .inr (.inl ⟨_, commandLine_of_admits hcs⟩)
  · rename_i ht
    rw [ht] at h
    obtain ⟨texts, htexts⟩ := credentials_of_admits h
    exact .inr (.inr ⟨texts, htexts⟩)
  · exact .inl rfl

theorem renderedExcess?_shownValue {f : Field} {v w : Value} (h : f.type.Admits v)
    (hw : shownValue f.shown v = .ok w) : w.renderedExcess? none = none := by
  rcases shownValue_cases h with hv | ⟨s, hv⟩ | ⟨texts, hv⟩
  · cases hv.symm.trans hw
    exact h.renderedExcess?
  · cases hv.symm.trans hw
    rfl
  · cases hv.symm.trans hw
    rw [Value.renderedExcess?, Excess.inside_unlimited, Value.renderedExcessAmong?_eq_none]
    intro v hv
    obtain ⟨s, -, rfl⟩ := List.mem_map.mp hv
    rfl

theorem exists_shownText {f : Field} {v : Value} (h : f.type.Admits v) :
    ∃ s, shownText f v = .ok s := by
  by_cases hspecial : f.type.isSpecial = false
  · rw [shownText_ordinary hspecial]
    rcases shownValue_cases h with hv | ⟨s, hv⟩ | ⟨texts, hv⟩
    · exact ⟨v.rendered, by rw [hv]; rfl⟩
    · exact ⟨(Value.text s).rendered, by rw [hv]; rfl⟩
    · exact ⟨(Value.list (texts.map .text)).rendered, by rw [hv]; rfl⟩
  · simp only [FieldType.isSpecial, Bool.not_eq_false, Bool.or_eq_true, decide_eq_true_eq] at hspecial
    unfold shownText
    rcases hspecial with (ht | ht) | ht
    · rw [ht]
      exact ⟨_, rfl⟩
    · rw [ht]
      exact ⟨_, rfl⟩
    · rw [ht] at h ⊢
      obtain ⟨vs, rfl, -, -⟩ := items?_of_admits h
      exact ⟨_, rfl⟩

/-! ## Sides -/

def labelled (text : Field → String) (fs : List Field) : List Pair :=
  fs.map fun f => (f.label, text f)

theorem map_fst_labelled (text : Field → String) (fs : List Field) :
    (labelled text fs).map Prod.fst = fs.map Field.label := by
  simp [labelled]

theorem sideLabels_plain (shape : SideShape) :
    ∀ label ∈ ["orig", "resp"], ∀ f ∈ shape.fields label, f.label = f.name := by
  cases shape <;> decide

theorem sideAttempts?_sideValue {get : String → Value} {shape : SideShape} {label : String}
    (hlabel : ∀ f ∈ shape.fields label, f.label = f.name)
    (hadmits : ∀ f ∈ shape.fields label, f.type.Admits (get f.name))
    (hsettled : ∀ f ∈ shape.fields label, Settled f (get f.name)) {text : Field → String}
    (htext : ∀ f ∈ shape.fields label, shownText f (get f.name) = .ok (text f)) :
    Builder.sideAttempts? none label (sideValue get shape label) =
      some (Builder.sure (labelled text (shape.fields label))) := by
  cases shape with
  | single =>
    simp only [SideShape.fields, List.forall_mem_cons] at hlabel hadmits htext
    obtain ⟨haddr, hport, hcode, -⟩ := htext
    simp only [labelled, SideShape.fields, List.map_cons, List.map_nil, hlabel,
      ← Except.ok.inj haddr, ← Except.ok.inj hport, ← Except.ok.inj hcode]
    have haddrs : (get (label ++ "_addr")).format none = .ok (get (label ++ "_addr")).rendered :=
      Value.format_eq_ok hadmits.1.renderedExcess?
    have hports : (get (label ++ "_port")).format none = .ok (get (label ++ "_port")).rendered :=
      Value.format_eq_ok hadmits.2.1.renderedExcess?
    have hcodes := Country.attempt_of_shown (hadmits.2.2.1.excess? _)
    simp only [sideValue, Builder.sideAttempts?, haddrs, hports, hcodes]
    rfl
  | multiPort =>
    simp only [SideShape.fields, List.forall_mem_cons] at hlabel hadmits hsettled htext
    obtain ⟨haddr, hports, hcode, -⟩ := htext
    simp only [labelled, SideShape.fields, List.map_cons, List.map_nil, hlabel,
      ← Except.ok.inj haddr, ← Except.ok.inj hports, ← Except.ok.inj hcode]
    -- once settled, ports are never left out
    have hsequence : Admits (.sequence .integer) (get (label ++ "_ports")) := by
      generalize get (label ++ "_ports") = v at hadmits hsettled
      cases hadmits.2.1 with
      | absent => cases hsettled.2.1
      | given h => exact h
    obtain ⟨ps, hps, -, hitems⟩ := items?_of_admits hsequence
    rw [hps] at hsequence
    have haddrs : (get (label ++ "_addr")).format none = .ok (get (label ++ "_addr")).rendered :=
      Value.format_eq_ok hadmits.1.renderedExcess?
    have hportTexts : (Value.list ps).format none = .ok (Value.list ps).rendered :=
      Value.format_eq_ok hsequence.renderedExcess?
    have hcodes := Country.attempt_of_shown (hadmits.2.2.1.excess? _)
    simp only [sideValue, Builder.sideAttempts?, haddrs, hps, Value.items?, Option.getD_some,
      hportTexts, hcodes]
    rfl
  | group =>
    simp only [SideShape.fields, List.forall_mem_cons] at hlabel hadmits htext
    obtain ⟨haddrs, hports, hcodes, -⟩ := htext
    obtain ⟨hadmitsAddrs, hadmitsPorts, hadmitsCodes, -⟩ := hadmits
    obtain ⟨as, has, -⟩ := items?_of_admits hadmitsAddrs
    obtain ⟨ps, hps, -⟩ := items?_of_admits hadmitsPorts
    obtain ⟨cs, hcs, hcodeAdmits, -⟩ := items?_of_admits hadmitsCodes
    rw [has] at hadmitsAddrs
    rw [hps] at hadmitsPorts
    have haddrTexts : (Value.list as).format none = .ok (Value.list as).rendered :=
      Value.format_eq_ok hadmitsAddrs.renderedExcess?
    have hportTexts : (Value.list ps).format none = .ok (Value.list ps).rendered :=
      Value.format_eq_ok hadmitsPorts.renderedExcess?
    have hdecoded := Country.attemptAll_of_shown fun c hc => (hcodeAdmits c hc).excess? _
    rw [has] at haddrs
    rw [hps] at hports
    rw [hcs] at hcodes
    simp only [labelled, SideShape.fields, List.map_cons, List.map_nil, hlabel,
      ← Except.ok.inj haddrs, ← Except.ok.inj hports, ← Except.ok.inj hcodes]
    simp only [Field.required] at has hps hcs
    simp only [sideValue, Builder.sideAttempts?, has, hps, hcs, Value.items?, Option.getD_some,
      haddrTexts, hportTexts, hdecoded]
    rfl

/-! ## All pairs -/

structure Shows (text : Field → String) (fs : List Field) (b : Builder) : Prop where
  room_eq : b.room = none
  pairs_eq : b.pairs = labelled text fs
  names_eq : b.names = fs.map Field.label

section Shows

variable {text : Field → String} {fs : List Field} {b : Builder}

theorem shows_start : Shows text [] Builder.start := ⟨rfl, rfl, rfl⟩

theorem Shows.fresh (h : Shows text fs b) {f : Field}
    (hnodup : ((fs ++ [f]).map Field.label).Nodup) : f.label ∉ b.names := by
  rw [List.map_append, List.nodup_append] at hnodup
  rw [h.names_eq]
  exact fun hf => hnodup.2.2 _ hf _ (by simp) rfl

theorem Shows.call (h : Shows text fs b) (gs : List Field) {c : Builder.Call} {p : Phase}
    (hc : c.phase? = some p) (henters : Builder.Enters b c)
    (hattempts : c.attempts none = Builder.sure (labelled text gs))
    (hnodup : ((fs ++ gs).map Field.label).Nodup) :
    ∃ b', b.call c = (b', .ok none) ∧ b'.phase = p ∧ Shows text (fs ++ gs) b' := by
  have hroom := h.room_eq
  have hpairs : c.pairs none = labelled text gs := by
    rw [Builder.Call.pairs, hattempts, Builder.made_sure]
  have hobstacle : c.obstacle? none = none := by
    rw [Builder.Call.obstacle?, hattempts, Builder.obstacle?_sure]
  have hfree : (b.names ++ (c.attempts b.room).map Prod.fst).Nodup := by
    rwa [hroom, h.names_eq, hattempts, Builder.map_fst_sure, map_fst_labelled, ← List.map_append]
  have htaken := Builder.call_taken hc henters hfree
  rw [hroom, hobstacle, hpairs] at htaken
  refine ⟨_, htaken, rfl, hroom, ?_, ?_⟩
  · simp [Builder.extend, h.pairs_eq, labelled]
  · simp [Builder.extend, h.names_eq, map_fst_labelled]

theorem accept_of_call {o : Builder.Outcome Unit} {b : Builder}
    (h : o.map id (Except.map fun _ => (none : Option (List Pair))) = (b, .ok none)) :
    accept o = .ok b := by
  obtain ⟨b', answer⟩ := o
  cases answer <;> cases h
  rfl

theorem Shows.addSlot (h : Shows text fs b) (hp : Phase.proto.rank ≤ b.phase.rank) {e : Event}
    {f : Field} (hspecial : f.type.isSpecial = false)
    (hordinary : f.label ∉ Builder.canonicalNames)
    (hadmits : f.type.Admits (e.get f.name)) (htext : shownText f (e.get f.name) = .ok (text f))
    (hnodup : ((fs ++ [f]).map Field.label).Nodup) :
    ∃ b', e.addSlot b f.slot = .ok b' ∧ Phase.proto.rank ≤ b'.phase.rank ∧
      Shows text (fs ++ [f]) b' := by
  rw [shownText_ordinary hspecial] at htext
  obtain ⟨v, hv, hrendered⟩ := map_ok.mp htext
  have hattempts : (Builder.Call.field f.label v none).attempts none =
      Builder.sure (labelled text [f]) := by
    simp [Builder.Call.attempts, text_none, labelled, Builder.sure, ← hrendered,
      Value.format_eq_ok (renderedExcess?_shownValue hadmits hv)]
  obtain ⟨b', hcall, hphase, hshows⟩ := h.call [f] (c := .field f.label v none) rfl
    ⟨hp, hordinary, h.fresh hnodup⟩ hattempts hnodup
  exact ⟨b', bind_ok.mpr ⟨v, hv, accept_of_call hcall⟩, by rw [hphase]; decide, hshows⟩

theorem Shows.foldlM_addSlot {gs : List Field} (h : Shows text fs b)
    (hp : Phase.proto.rank ≤ b.phase.rank) {e : Event} (hspecial : ∀ g ∈ gs, g.type.isSpecial = false)
    (hordinary : ∀ g ∈ gs, g.label ∉ Builder.canonicalNames)
    (hadmits : ∀ g ∈ gs, g.type.Admits (e.get g.name))
    (htext : ∀ g ∈ gs, shownText g (e.get g.name) = .ok (text g))
    (hnodup : ((fs ++ gs).map Field.label).Nodup) :
    ∃ b', (gs.map Field.slot).foldlM e.addSlot b = .ok b' ∧ Phase.proto.rank ≤ b'.phase.rank ∧
      Shows text (fs ++ gs) b' := by
  induction gs generalizing fs b with
  | nil => exact ⟨b, rfl, hp, by rwa [List.append_nil]⟩
  | cons g gs ih =>
    rw [List.append_cons] at hnodup ⊢
    have hprefix : ((fs ++ [g]).map Field.label).Nodup := by
      rw [List.map_append] at hnodup
      exact (List.nodup_append.mp hnodup).1
    obtain ⟨b', hadd, hp', hshows⟩ := h.addSlot hp (hspecial g List.mem_cons_self)
      (hordinary g List.mem_cons_self) (hadmits g List.mem_cons_self) (htext g List.mem_cons_self)
      hprefix
    obtain ⟨b'', hrest, hp'', hshows'⟩ := ih hshows hp'
      (fun g' hg' => hspecial g' (List.mem_cons_of_mem _ hg'))
      (fun g' hg' => hordinary g' (List.mem_cons_of_mem _ hg'))
      (fun g' hg' => hadmits g' (List.mem_cons_of_mem _ hg'))
      (fun g' hg' => htext g' (List.mem_cons_of_mem _ hg')) hnodup
    refine ⟨b'', ?_, hp'', hshows'⟩
    rw [List.map_cons, List.foldlM_cons]
    exact bind_ok.mpr ⟨b', hadd, hrest⟩

end Shows

theorem sides_of_loaded {e : Event} (h : e.Loaded) {s : Sides} (hs : e.kind.sides? = some s) :
    side e.get s.originator "orig" = .ok (sideValue e.get s.originator "orig") ∧
      side e.get s.responder "resp" = .ok (sideValue e.get s.responder "resp") := by
  have hadmits {f : Field} (hf : f ∈ s.fields) := h.admits f (Kind.sideFields_subset hs hf)
  obtain ⟨ho, hr⟩ := h.aligned hs
  rw [side_eq fun f hf => hadmits (List.mem_append_left _ hf), if_pos ho,
    side_eq fun f hf => hadmits (List.mem_append_right _ hf), if_pos hr]
  exact ⟨rfl, rfl⟩

theorem nodup_left {fs gs : List Field} (h : ((fs ++ gs).map Field.label).Nodup) :
    (fs.map Field.label).Nodup := by
  rw [List.map_append] at h
  exact (List.nodup_append.mp h).1

theorem shownFields_eq {k : Kind} {s : Sides} (hs : k.sides? = some s) :
    k.shownFields = [Fields.category] ++ [Fields.sensor] ++ s.originator.fields "orig" ++
      s.responder.fields "resp" ++ [Fields.proto] ++ k.details ++ [Fields.confidence] ++
      [Fields.triageScores] := by
  simp [Kind.shownFields, Kind.laterFields, Kind.sideFields, hs, Sides.fields]

theorem sideAttempts?_loaded {e : Event} (h : e.Loaded) {text : Field → String}
    (htext : ∀ f ∈ e.kind.shownFields, shownText f (e.get f.name) = .ok (text f))
    {shape : SideShape} {label : String} (hlabel : ∀ f ∈ shape.fields label, f.label = f.name)
    (hshown : ∀ f ∈ shape.fields label, f ∈ e.kind.shownFields) :
    Builder.sideAttempts? none label (sideValue e.get shape label) =
      some (Builder.sure (labelled text (shape.fields label))) := by
  have hfields : ∀ f ∈ shape.fields label, f ∈ e.kind.fields := fun f hf =>
    Kind.mem_fields_iff.mpr (.inr (hshown f hf))
  exact sideAttempts?_sideValue hlabel (fun f hf => h.admits f (hfields f hf))
    (fun f hf => h.settled f (hfields f hf)) (fun f hf => htext f (hshown f hf))

theorem pairs_of_loaded {e : Event} (h : e.Loaded) {text : Field → String}
    (htext : ∀ f ∈ e.kind.shownFields, shownText f (e.get f.name) = .ok (text f)) :
    e.pairs = .ok (labelled text e.kind.shownFields) := by
  obtain ⟨s, hs⟩ := Kind.exists_sides h.registered
  obtain ⟨ho, hr⟩ := sides_of_loaded h hs
  have hspecial := Kind.laterFields_ordinary _ h.registered
  have hordinary := Kind.laterLabels_ordinary _ h.registered
  have hsides : ∀ f ∈ s.fields, f ∈ e.kind.shownFields := Kind.sideFields_shown hs
  have hlater : ∀ f ∈ e.kind.laterFields, f ∈ e.kind.shownFields := by
    intro f hf
    simp [Kind.shownFields, hf]
  have hadmits {f : Field} (hf : f ∈ e.kind.shownFields) : f.type.Admits (e.get f.name) :=
    h.admits f (Kind.mem_fields_iff.mpr (.inr hf))
  have hcategory : Builder.text none (e.get "category") (some uncategorised) =
      .ok (text Fields.category) := by
    have hmem : Fields.category ∈ e.kind.shownFields := by simp [Kind.shownFields]
    refine (text_eq_ok (hadmits hmem).renderedExcess? _).trans (congrArg _ ?_)
    exact Except.ok.inj (htext _ hmem)
  have hformat {f : Field} (hf : f ∈ e.kind.shownFields) (hspecial : f.type.isSpecial = false)
      (hshown : f.shown = .plain) : (e.get f.name).format none = .ok (text f) := by
    have hplain := htext f hf
    rw [shownText_plain hspecial hshown] at hplain
    rw [Value.format_eq_ok (hadmits hf).renderedExcess?, Except.ok.inj hplain]
  have hsensor : (e.get "sensor").format none = .ok (text Fields.sensor) :=
    hformat (f := Fields.sensor) (by simp [Kind.shownFields]) rfl rfl
  have hproto : (e.get "proto").format none = .ok (text Fields.proto) :=
    hformat (f := Fields.proto) (by simp [Kind.shownFields]) rfl rfl
  have hopairs := sideAttempts?_loaded h htext (sideLabels_plain _ "orig" (by simp)) fun f hf =>
    hsides f (List.mem_append_left _ hf)
  have hrpairs := sideAttempts?_loaded h htext (sideLabels_plain _ "resp" (by simp)) fun f hf =>
    hsides f (List.mem_append_right _ hf)
  -- free names for every prefix of the fields
  have hn8 := Kind.shownLabels_nodup _ h.registered
  rw [shownFields_eq hs] at hn8
  have hn7 := nodup_left hn8
  have hn6 := nodup_left hn7
  have hn5 := nodup_left hn6
  have hn4 := nodup_left hn5
  have hn3 := nodup_left hn4
  have hn2 := nodup_left hn3
  -- call by call, with all pairs so far
  obtain ⟨b1, hb1, hp1, hs1⟩ := shows_start.call [Fields.category]
    (c := .lead "category" (e.get "category") (some uncategorised)) rfl
    ⟨rfl, by decide, by simp [Builder.start]⟩ (by rw [Builder.Call.attempts, hcategory]; rfl)
    (nodup_left hn2)
  obtain ⟨b2, hb2, hp2, hs2⟩ := hs1.call [Fields.sensor]
    (c := .lead "sensor" (e.get "sensor") none) rfl ⟨hp1, by decide, hs1.fresh hn2⟩
    (by rw [Builder.Call.attempts, text_none, hsensor]; rfl) hn2
  obtain ⟨b3, hb3, hp3, hs3⟩ := hs2.call (s.originator.fields "orig")
    (c := .originator (sideValue e.get s.originator "orig")) rfl
    ⟨hp2, by simp [hs2.room_eq, hopairs]⟩ (by rw [Builder.Call.attempts, hopairs]; rfl) hn3
  obtain ⟨b4, hb4, hp4, hs4⟩ := hs3.call (s.responder.fields "resp")
    (c := .responder (sideValue e.get s.responder "resp")) rfl
    ⟨hp3, by simp [hs3.room_eq, hrpairs]⟩ (by rw [Builder.Call.attempts, hrpairs]; rfl) hn4
  obtain ⟨b5, hb5, hp5, hs5⟩ := hs4.call [Fields.proto] (c := .proto (e.get "proto")) rfl
    hp4 (by rw [Builder.Call.attempts, hproto]; rfl) hn5
  obtain ⟨b6, hb6, hp6, hs6⟩ := hs5.foldlM_addSlot (Nat.le_of_eq (congrArg Phase.rank hp5.symm))
    (fun g hg => hspecial g (List.mem_append_left _ hg))
    (fun g hg => hordinary g (List.mem_append_left _ hg))
    (fun g hg => hadmits (hlater g (List.mem_append_left _ hg)))
    (fun g hg => htext g (hlater g (List.mem_append_left _ hg))) hn6
  have hconfidence : Fields.confidence ∈ e.kind.laterFields := by simp [Kind.laterFields]
  have htriage : Fields.triageScores ∈ e.kind.laterFields := by simp [Kind.laterFields]
  obtain ⟨b7, hb7, hp7, hs7⟩ := hs6.addSlot hp6 (hspecial _ hconfidence) (hordinary _ hconfidence)
    (hadmits (hlater _ hconfidence)) (htext _ (hlater _ hconfidence)) hn7
  obtain ⟨b8, hb8, hp8, hs8⟩ := hs7.addSlot hp7 (hspecial _ htriage) (hordinary _ htriage)
    (hadmits (hlater _ htriage)) (htext _ (hlater _ htriage)) hn8
  -- the event makes just these calls
  rw [Event.pairs, hs, Kind.layout_eq _ h.registered]
  refine bind_ok.mpr ⟨b1, accept_of_call hb1, bind_ok.mpr ⟨b2, accept_of_call hb2, ?_⟩⟩
  refine bind_ok.mpr ⟨_, mapError_ok.mpr ho, bind_ok.mpr ⟨b3, accept_of_call hb3, ?_⟩⟩
  refine bind_ok.mpr ⟨_, mapError_ok.mpr hr, bind_ok.mpr ⟨b4, accept_of_call hb4, ?_⟩⟩
  refine bind_ok.mpr ⟨b5, accept_of_call hb5, bind_ok.mpr ⟨b6, hb6, ?_⟩⟩
  refine bind_ok.mpr ⟨b7, hb7, bind_ok.mpr ⟨b8, hb8, ?_⟩⟩
  rw [Builder.build, if_neg (Nat.not_lt.mpr hp8), hs8.pairs_eq, shownFields_eq hs]
  rfl

theorem exists_texts {e : Event} (h : e.Loaded) :
    ∃ text : Field → String,
      (∀ f ∈ e.kind.shownFields, shownText f (e.get f.name) = .ok (text f)) ∧
        e.pairs = .ok (labelled text e.kind.shownFields) := by
  let text (f : Field) : String := ((shownText f (e.get f.name)).toOption).getD ""
  have htext : ∀ f ∈ e.kind.shownFields, shownText f (e.get f.name) = .ok (text f) := by
    intro f hf
    have hadmits := h.admits f (Kind.mem_fields_iff.mpr (.inr hf))
    obtain ⟨s, hs⟩ := exists_shownText hadmits
    simp [text, hs, Except.toOption]
  exact ⟨text, htext, pairs_of_loaded h htext⟩

end Event

end Detection
