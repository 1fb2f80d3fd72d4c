import Detection.Proofs.Kind.Registered

/-! # Making an event of checked values

Values of their fields' types can all be settled, and a kind that is registered gets its sides from
them. What remains to fail is the alignment of aggregate sides.
-/

namespace Detection

open FieldType (Admits)

theorem FieldType.Admits.ne_list {t : FieldType} {v : Value} (h : Admits t v) (items : List Value) :
    v ≠ .list items := by
  induction h with
  | given h ih => exact ih
  | _ => simp

namespace Event

/-! ## Settling -/

def Settled (f : Field) (v : Value) : Prop := settle f v = .ok v

theorem settled_of_ne {f : Field} {v : Value} (hpair : f.type ≠ .sequence .textPair)
    (hnone : v ≠ .none) (hlist : ∀ items, v ≠ .list items) : Settled f v := by
  unfold Settled settle
  split
  · contradiction
  · exact absurd rfl hnone
  · exact absurd rfl (hlist _)
  · rfl

theorem settled_none {f : Field} (hopt : ∀ t, f.type ≠ .optional t)
    (hpair : f.type ≠ .sequence .textPair) : Settled f .none := by
  unfold Settled settle
  split
  · contradiction
  · rename_i ht _
    exact absurd ht (hopt _)
  · contradiction
  · rfl

theorem settled_pairs {f : Field} (hpair : f.type = .sequence .textPair) {vs : List Value}
    (hvs : ∀ v ∈ vs, Admits .textPair v) : Settled f (.tuple vs) := by
  have hitems : ∃ pairs : List (List Value), vs.map sequence = pairs.map .ok ∧ pairs.map .tuple = vs := by
    induction vs with
    | nil => exact ⟨[], rfl, rfl⟩
    | cons v vs ih =>
      obtain ⟨pairs, hseq, htuple⟩ := ih fun w hw => hvs w (List.mem_cons_of_mem _ hw)
      cases hvs v List.mem_cons_self with
      | textPair a b =>
        exact ⟨[.text a, .text b] :: pairs, by rw [List.map_cons, hseq]; rfl,
          by rw [List.map_cons, htuple]⟩
  obtain ⟨pairs, hseq, htuple⟩ := hitems
  unfold Settled settle
  rw [hpair]
  refine bind_ok.mpr ⟨vs, rfl, bind_ok.mpr ⟨pairs, mapM_ok.mpr hseq, ?_⟩⟩
  rw [htuple]
  rfl

theorem settled_or_none {f : Field} {v : Value} (h : f.type.Admits v) :
    Settled f v ∨ v = .none ∧ ∃ t, f.type = .optional t := by
  by_cases hpair : f.type = .sequence .textPair
  · rw [hpair] at h
    cases h with
    | sequence hvs => exact .inl (settled_pairs hpair hvs)
  · by_cases hnone : v = .none
    · subst hnone
      by_cases hopt : ∃ t, f.type = .optional t
      · exact .inr ⟨rfl, hopt⟩
      · exact .inl (settled_none (fun t ht => hopt ⟨t, ht⟩) hpair)
    · exact .inl (settled_of_ne hpair hnone h.ne_list)

theorem settle_admits {f : Field} {v : Value} (h : f.type.Admits v)
    (hdefault : ∀ d, f.default = some d → f.type.Admits d) :
    ∃ w, settle f v = .ok w ∧ f.type.Admits w ∧ Settled f w := by
  rcases settled_or_none h with hself | ⟨rfl, t, ht⟩
  · exact ⟨v, hself, h, hself⟩
  have hpair : f.type ≠ .sequence .textPair := by simp [ht]
  have hsettle : settle f .none = .ok (f.default.getD .none) := by
    unfold settle
    rw [ht]
    rfl
  -- the default takes the place of nothing, and may itself be nothing
  have hadmits : f.type.Admits (f.default.getD .none) := by
    cases hd : f.default with
    | none => exact h
    | some d => exact hdefault d hd
  refine ⟨_, hsettle, hadmits, ?_⟩
  by_cases hnone : f.default.getD .none = .none
  · rw [Settled, hnone, hsettle, hnone]
  · exact settled_of_ne hpair hnone hadmits.ne_list

/-! ## Settling all fields -/

theorem exists_settleAll {args : List (String × Value)} {fs : List Field}
    (h : ∀ f ∈ fs, ∃ w, settle f ((given args f).getD .none) = .ok w) :
    ∃ vs, settleAll args fs = .ok vs := by
  induction fs with
  | nil => exact ⟨[], rfl⟩
  | cons f fs ih =>
    obtain ⟨w, hw⟩ := h f List.mem_cons_self
    obtain ⟨vs, hvs⟩ := ih fun g hg => h g (List.mem_cons_of_mem _ hg)
    exact ⟨(f.name, w) :: vs, bind_ok.mpr ⟨w, hw, bind_ok.mpr ⟨vs, hvs, rfl⟩⟩⟩

theorem lookup_settleAll {args : List (String × Value)} {fs : List Field}
    {vs : List (String × Value)} (h : settleAll args fs = .ok vs)
    (hnodup : (fs.map Field.name).Nodup) {f : Field} (hf : f ∈ fs) :
    ∃ w, settle f ((given args f).getD .none) = .ok w ∧ vs.lookup f.name = some w := by
  induction fs generalizing vs with
  | nil => cases hf
  | cons g fs ih =>
    obtain ⟨w, hw, h⟩ := bind_ok.mp h
    obtain ⟨ws, hws, h⟩ := bind_ok.mp h
    cases h
    rw [List.map_cons, List.nodup_cons] at hnodup
    rcases List.mem_cons.mp hf with rfl | hf
    · exact ⟨w, hw, by simp⟩
    · obtain ⟨x, hx, hlookup⟩ := ih hws hnodup.2 hf
      have hne : f.name ≠ g.name := fun heq => hnodup.1 (heq ▸ List.mem_map_of_mem hf)
      exact ⟨x, hx, by simp [List.lookup_cons, beq_false_of_ne hne, hlookup]⟩

/-! ## Sides -/

theorem isInteger_of_admits {v : Value} (h : Admits .integer v) : v.isInteger = true := by
  cases h with
  | integer n => rfl

theorem items?_of_admits {t : FieldType} {v : Value} (h : Admits (.sequence t) v) :
    ∃ vs, v = .tuple vs ∧ (∀ x ∈ vs, Admits t x) ∧ v.items? = some vs := by
  cases h with
  | sequence hvs => exact ⟨_, rfl, hvs, rfl⟩

theorem single_of_admits {addr port code : Value} (h : Admits (.optional .integer) port) :
    Side.single addr port code = .ok (.endpoint addr port code) := by
  cases h with
  | absent => rfl
  | given h =>
    unfold Side.single
    split
    · rfl
    · rw [if_pos (isInteger_of_admits h)]

theorem multiPort_of_admits {addr ports code : Value}
    (h : Admits (.optional (.sequence .integer)) ports) :
    Side.multiPort addr ports code = .ok (.multiPort addr (ports.items?.getD []) code) := by
  cases h with
  | absent => rfl
  | given h =>
    obtain ⟨ps, rfl, hps, hitems⟩ := items?_of_admits h
    have hfind : ps.find? (!·.isInteger) = none := by
      simpa [List.find?_eq_none] using fun p hp => isInteger_of_admits (hps p hp)
    refine bind_ok.mpr ⟨ps, rfl, ?_⟩
    simp only [hfind]
    rfl

def Aligned (lengths : List (String × Nat)) : Prop :=
  ∀ a ∈ lengths, ∀ b ∈ lengths, a.2 = b.2

instance (lengths : List (String × Nat)) : Decidable (Aligned lengths) :=
  inferInstanceAs (Decidable (∀ a ∈ lengths, ∀ b ∈ lengths, a.2 = b.2))

theorem checkAligned_eq (lengths : List (String × Nat)) :
    Side.checkAligned lengths =
      if Aligned lengths then .ok () else .error (.misaligned lengths) := by
  cases lengths with
  | nil => rfl
  | cons first rest =>
    obtain ⟨name, n⟩ := first
    have hall : rest.all (·.2 = n) = true ↔ Aligned ((name, n) :: rest) := by
      rw [List.all_eq_true, Aligned]
      constructor
      · intro h
        have hsame : ∀ a ∈ (name, n) :: rest, a.2 = n :=
          List.forall_mem_cons.mpr ⟨rfl, fun a ha => of_decide_eq_true (h a ha)⟩
        intro a ha b hb
        rw [hsame a ha, hsame b hb]
      · intro h a ha
        exact decide_eq_true (h a (List.mem_cons_of_mem _ ha) _ List.mem_cons_self)
    simp only [Side.checkAligned, hall]

/-- The lengths of the sequences that describe the hosts of a side. One host has none. -/
def sideLengths (size : String → Nat) (shape : SideShape) (label : String) : List (String × Nat) :=
  match shape with
  | .single | .multiPort => []
  | .group =>
    [("addrs", size (label ++ "_addrs")), ("ports", size (label ++ "_ports")),
      ("country_codes", size (label ++ "_country_codes"))]

def itemCount (get : String → Value) (name : String) : Nat := ((get name).items?.getD []).length

def sideValue (get : String → Value) (shape : SideShape) (label : String) : Value :=
  match shape with
  | .single =>
    .endpoint (get (label ++ "_addr")) (get (label ++ "_port")) (get (label ++ "_country_code"))
  | .multiPort =>
    .multiPort (get (label ++ "_addr")) ((get (label ++ "_ports")).items?.getD [])
      (get (label ++ "_country_code"))
  | .group =>
    .group ((get (label ++ "_addrs")).items?.getD []) ((get (label ++ "_ports")).items?.getD [])
      ((get (label ++ "_country_codes")).items?.getD [])

theorem side_eq {get : String → Value} {shape : SideShape} {label : String}
    (h : ∀ f ∈ shape.fields label, f.type.Admits (get f.name)) :
    side get shape label =
      if Aligned (sideLengths (itemCount get) shape label) then .ok (sideValue get shape label)
      else .error (.misaligned (sideLengths (itemCount get) shape label)) := by
  have hnone : Aligned [] := by simp [Aligned]
  cases shape with
  | single =>
    simp only [SideShape.fields, List.forall_mem_cons] at h
    rw [sideLengths, if_pos hnone]
    exact single_of_admits h.2.1
  | multiPort =>
    simp only [SideShape.fields, List.forall_mem_cons] at h
    rw [sideLengths, if_pos hnone]
    exact multiPort_of_admits h.2.1
  | group =>
    simp only [SideShape.fields, List.forall_mem_cons] at h
    obtain ⟨as, has, -, -⟩ := items?_of_admits h.1
    obtain ⟨ps, hps, -, -⟩ := items?_of_admits h.2.1
    obtain ⟨cs, hcs, -, -⟩ := items?_of_admits h.2.2.1
    simp only [Field.required] at has hps hcs
    simp only [side, Side.group, sideLengths, sideValue, itemCount, has, hps, hcs, Side.sequence,
      Value.items?, Option.getD_some, checkAligned_eq, bind, Except.bind]
    by_cases haligned : Aligned
        [("addrs", as.length), ("ports", ps.length), ("country_codes", cs.length)]
    · simp only [if_pos haligned]
      rfl
    · simp only [if_neg haligned]

theorem checkSides_eq {k : Kind} {s : Sides} (hs : k.sides? = some s) {get : String → Value}
    (h : ∀ f ∈ k.fields, f.type.Admits (get f.name)) :
    checkSides k get =
      if Aligned (sideLengths (itemCount get) s.originator "orig") then
        if Aligned (sideLengths (itemCount get) s.responder "resp") then .ok ()
        else .error (.side (.misaligned (sideLengths (itemCount get) s.responder "resp")))
      else .error (.side (.misaligned (sideLengths (itemCount get) s.originator "orig"))) := by
  have hside {f : Field} (hf : f ∈ s.fields) := h f (Kind.sideFields_subset hs hf)
  simp only [checkSides, hs, side_eq fun f hf => hside (List.mem_append_left _ hf),
    side_eq fun f hf => hside (List.mem_append_right _ hf)]
  split
  · split <;> rfl
  · rfl

theorem checkSides_of_admits {k : Kind} (hk : k ∈ Kind.registered) {get : String → Value}
    (h : ∀ f ∈ k.fields, f.type.Admits (get f.name)) :
    checkSides k get = .ok () ∨
      ∃ lengths, checkSides k get = .error (.side (.misaligned lengths)) := by
  obtain ⟨s, hs⟩ := Kind.exists_sides hk
  rw [checkSides_eq hs h]
  split
  · split
    · exact .inl rfl
    · exact .inr ⟨_, rfl⟩
  · exact .inr ⟨_, rfl⟩

/-! ## Making -/

/-- An event as a record leaves it: of a registered kind, with settled values of its fields' types and
well-formed sides. -/
structure Loaded (e : Event) : Prop where
  registered : e.kind ∈ Kind.registered
  admits : ∀ f ∈ e.kind.fields, f.type.Admits (e.get f.name)
  settled : ∀ f ∈ e.kind.fields, Settled f (e.get f.name)
  sides : checkSides e.kind e.get = .ok ()

theorem Loaded.aligned {e : Event} (h : e.Loaded) {s : Sides} (hs : e.kind.sides? = some s) :
    Aligned (sideLengths (itemCount e.get) s.originator "orig") ∧
      Aligned (sideLengths (itemCount e.get) s.responder "resp") := by
  have hsides := checkSides_eq hs h.admits
  rw [h.sides] at hsides
  split at hsides
  · split at hsides
    · exact ⟨‹_›, ‹_›⟩
    · cases hsides
  · cases hsides

/-- An event made of checked values has them settled, and is refused only over its sides. -/
theorem make_eq {k : Kind} (hk : k ∈ Kind.registered) {args : List (String × Value)}
    (hargs : ∀ f ∈ k.fields, ∃ v, args.lookup f.name = some v ∧ f.type.Admits v) :
    ∃ e : Event, e.kind = k ∧ make k args = (checkSides k e.get).map (fun _ => e) ∧
      ∀ f ∈ k.fields, f.type.Admits (e.get f.name) ∧ Settled f (e.get f.name) ∧
        ∀ v, args.lookup f.name = some v → settle f v = .ok (e.get f.name) := by
  have hgiven : ∀ f ∈ k.fields, ∃ v, given args f = some v ∧ f.type.Admits v := by
    intro f hf
    obtain ⟨v, hlookup, hv⟩ := hargs f hf
    exact ⟨v, by simp [given, hlookup], hv⟩
  -- nothing is missing and everything settles, which leaves the sides
  have hsettle : ∀ f ∈ k.fields, ∃ w, settle f ((given args f).getD .none) = .ok w ∧
      f.type.Admits w ∧ Settled f w := by
    intro f hf
    obtain ⟨v, hv, hadmits⟩ := hgiven f hf
    rw [hv]
    exact settle_admits hadmits fun d hd => Kind.default_admits hk hf hd
  obtain ⟨vs, hvs⟩ := exists_settleAll fun f hf => (hsettle f hf).imp fun _ h => h.1
  have hmissing : (k.fields.filter fun f => (given args f).isNone).isEmpty = true := by
    rw [List.isEmpty_iff, List.filter_eq_nil_iff]
    intro f hf
    obtain ⟨v, hv, -⟩ := hgiven f hf
    simp [hv]
  let e : Event := ⟨k, vs, map_fst_settleAll hvs⟩
  refine ⟨e, rfl, ?_, fun f hf => ?_⟩
  · simp only [make, if_pos hmissing]
    split
    · rename_i heq
      rw [hvs] at heq
      cases heq
    · rename_i attributes heq
      have hattributes : attributes = vs := Except.ok.inj (heq.symm.trans hvs)
      subst hattributes
      cases checkSides k e.get <;> rfl
  · obtain ⟨w, hw, hlookup⟩ := lookup_settleAll hvs (Kind.fieldNames_nodup k hk) hf
    obtain ⟨x, hx, hadmits, hsettled⟩ := hsettle f hf
    obtain rfl : w = x := Except.ok.inj (hw.symm.trans hx)
    have hegets : e.get f.name = w := by simp [get, e, hlookup]
    rw [hegets]
    refine ⟨hadmits, hsettled, fun v hv => ?_⟩
    rwa [given, hv, Option.some_or, Option.getD_some] at hw

theorem make_of_admits {k : Kind} (hk : k ∈ Kind.registered) {args : List (String × Value)}
    (hargs : ∀ f ∈ k.fields, ∃ v, args.lookup f.name = some v ∧ f.type.Admits v) :
    (∃ e, make k args = .ok e ∧ e.Loaded) ∨
      ∃ lengths, make k args = .error (.side (.misaligned lengths)) := by
  obtain ⟨e, rfl, hmake, hget⟩ := make_eq hk hargs
  rw [hmake]
  rcases checkSides_of_admits hk fun f hf => (hget f hf).1 with hsides | ⟨lengths, hsides⟩
  · rw [hsides]
    exact .inl ⟨e, rfl, hk, fun f hf => (hget f hf).1, fun f hf => (hget f hf).2.1, hsides⟩
  · rw [hsides]
    exact .inr ⟨lengths, rfl⟩

end Event

end Detection
