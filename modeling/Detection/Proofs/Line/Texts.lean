import Detection.Proofs.Event.Shown
import Detection.Proofs.Line.Framed

/-! # The texts of values in a line

Numbers, times and addresses are written in inert characters, all other texts are quoted where they have
to be. The one exception is the zone of an address, which is written as it is.
-/

namespace Detection

open FieldType (Admits)

/-! ## Numbers and times -/

theorem inert_nat (n : Nat) : Inert (toString n).toList := by
  rw [Nat.toString_eq_ofList_toDigits, String.toList_ofList]
  exact inert_toDigits 10 n

theorem inert_int (n : Int) : Inert (toString n).toList := by
  cases n with
  | ofNat m => exact inert_nat m
  | negSucc m =>
    show Inert ("-" ++ toString (m + 1)).toList
    rw [String.toList_append]
    exact inert_append.mpr ⟨by decide, inert_nat _⟩

theorem inert_padded (width n : Nat) : Inert (Timestamp.padded width n) :=
  inert_append.mpr ⟨inert_replicate _ rfl, inert_toDigits 10 n⟩

theorem inert_fractionChars (micro : Nat) : Inert (Timestamp.fractionChars micro) := by
  unfold Timestamp.fractionChars
  split
  · exact inert_nil
  · exact inert_cons.mpr ⟨rfl, inert_padded 6 micro⟩

theorem inert_offsetChars (o : Offset) : Inert (Timestamp.offsetChars o) := by
  have hsign : isInert (if o.micros < 0 then '-' else '+') = true := by split <;> rfl
  have hcolon : isInert ':' = true := rfl
  simp only [Timestamp.offsetChars, inert_cons, inert_append, hsign, hcolon, inert_padded, true_and]
  split
  · exact inert_nil
  · simp only [inert_cons, inert_append, hcolon, inert_padded, inert_fractionChars, and_self]

theorem inert_timestamp (t : Timestamp) : Inert t.text.toList := by
  have hhyphen : isInert '-' = true := rfl
  have hcolon : isInert ':' = true := rfl
  have hletter : isInert 'T' = true := rfl
  simp only [Timestamp.text, String.toList_ofList, Timestamp.chars, Timestamp.dateChars,
    Timestamp.clockChars, inert_cons, inert_append, hhyphen, hcolon, hletter, inert_padded,
    inert_fractionChars, true_and]
  split
  · exact inert_nil
  · exact inert_offsetChars _

theorem inert_trimZeros {cs : List Char} (h : Inert cs) : Inert (Binary64.trimZeros cs) := by
  apply h.subset
  intro c hc
  simp only [Binary64.trimZeros, List.mem_reverse] at hc
  exact List.mem_reverse.mp (List.dropWhile_subset _ hc)

theorem inert_decimalChars (d : Binary64.Digits) : Inert (Binary64.decimalChars d) := by
  have hall := inert_nat d.digits
  have hds := inert_trimZeros hall
  have htake (n : Nat) := hds.subset (List.take_subset n _)
  have hdrop (n : Nat) := hds.subset (List.drop_subset n _)
  have hzeros (n : Nat) : Inert (List.replicate n '0') := inert_replicate n rfl
  have hpoint : isInert '.' = true := rfl
  have hzero : isInert '0' = true := rfl
  unfold Binary64.decimalChars
  simp only
  split
  · simp only [inert_cons, inert_append, hpoint, hzero, hzeros, hds, and_self]
  · split
    · split
      · simp only [inert_cons, inert_append, inert_nil, hpoint, hzero, hzeros, hds, and_self]
      · simp only [inert_cons, inert_append, hpoint, htake, hdrop, and_self]
    · have hexponent : isInert 'e' = true := rfl
      have hsigned (e : Int) : Inert (Binary64.signedExponent e) := by
        unfold Binary64.signedExponent
        simp only [inert_cons, inert_append, hzeros, inert_nat, and_true]
        split <;> rfl
      simp only [inert_cons, inert_append, htake, hexponent, hsigned, and_true, true_and]
      split
      · exact inert_nil
      · exact inert_cons.mpr ⟨hpoint, hdrop 1⟩

theorem inert_number (x : Binary64) : Inert x.text.toList := by
  have hsign (negative : Bool) : Inert (if negative then ['-'] else []) := by
    cases negative <;> decide
  rw [Binary64.text, String.toList_ofList]
  cases x with
  | nan => decide
  | infinity negative => exact inert_append.mpr ⟨hsign negative, by decide⟩
  | finite negative rank =>
    refine inert_append.mpr ⟨hsign negative, ?_⟩
    split
    · decide
    · exact inert_decimalChars _

/-! ## Addresses -/

namespace Address

def zone : Address → Option String
  | .v4 _ => none
  | .v6 _ zone => zone

def host : Address → List Char
  | .v4 o => Text.join ['.'] (o.toList.map octetChars)
  | .v6 g none => groupsChars g.toList
  | .v6 g (some _) => groupsChars g.toList ++ ['%']

theorem chars_eq (a : Address) : a.chars = a.host ++ (a.zone.getD "").toList := by
  cases a with
  | v4 o => simp [chars, host, zone]
  | v6 g zone => cases zone <;> simp [chars, host, Address.zone]

theorem inert_groupsChars (gs : List UInt16) : Inert (groupsChars gs) := by
  have hjoined (part : List UInt16) : Inert (Text.join [':'] (part.map groupChars)) := by
    apply inert_join (by decide)
    intro p hp
    obtain ⟨g, -, rfl⟩ := List.mem_map.mp hp
    exact inert_toDigits 16 _
  simp only [groupsChars]
  split
  · exact hjoined _
  · simp only [inert_append, hjoined, true_and, and_true]
    decide

theorem inert_host (a : Address) : Inert a.host := by
  cases a with
  | v4 o =>
    apply inert_join (by decide)
    intro p hp
    obtain ⟨b, -, rfl⟩ := List.mem_map.mp hp
    exact inert_toDigits 10 _
  | v6 g zone =>
    cases zone with
    | none => exact inert_groupsChars _
    | some zone => exact inert_append.mpr ⟨inert_groupsChars _, by decide⟩

end Address

def Value.zones : Value → List String
  | .address a => a.zone.toList
  | .tuple items => items.filterMap fun
    | .address a => a.zone
    | _ => Option.none
  | _ => []

/-! ## Sequences -/

theorem sealed_bracketed {texts : List String} (h : ∀ t ∈ texts, Sealed t.toList) :
    Sealed (bracketed texts).toList := by
  have hjoin : Sealed (Text.join [','] (texts.map String.toList)) := by
    apply sealed_join (Inert.sealed (by decide))
    intro p hp
    obtain ⟨t, ht, rfl⟩ := List.mem_map.mp hp
    exact h t ht
  have hopen : Sealed ['['] := Inert.sealed (by decide)
  have hclose : Sealed [']'] := Inert.sealed (by decide)
  rw [toList_bracketed]
  exact (hopen.append hjoin).append hclose

theorem through_comma (q : Quotes) (cs : List Char) :
    q.through (',' :: cs) = q.settled.through cs := by cases q <;> rfl

/-- A comma in front of the first part changes nothing for a reader outside of quotes. -/
theorem through_join (parts : List (List Char)) :
    Quotes.outside.through (Text.join [','] parts) =
      Quotes.outside.through (parts.flatMap fun p => ',' :: p) := by
  have hjoin : ∀ (p : List Char) (ps : List (List Char)),
      Text.join [','] (p :: ps) = p ++ ps.flatMap fun q => ',' :: q := by
    intro p ps
    induction ps generalizing p with
    | nil => simp [Text.join]
    | cons q ps ih => rw [Text.join, ih q]; simp
  cases parts with
  | nil => rfl
  | cons p ps =>
    rw [hjoin, List.flatMap_cons, List.cons_append, through_comma]
    rfl

theorem framed_iff_settled (cs : List Char) :
    Framed cs ↔ (Quotes.outside.through cs).map Quotes.settled = some .outside := by
  unfold Framed
  cases Quotes.outside.through cs with
  | none => simp
  | some q => simp [Quotes.settled_eq_outside]

theorem through_zones {q q' : Quotes} (h : q.settled = q'.settled) (as : List Address) :
    (q.through (as.flatMap fun a => ',' :: a.chars)).map Quotes.settled =
      (q'.through ((as.filterMap Address.zone).flatMap fun z => ',' :: z.toList)).map
        Quotes.settled := by
  induction as generalizing q q' with
  | nil => simp [h]
  | cons a as ih =>
    have hhost : Inert (',' :: a.host) := inert_cons.mpr ⟨rfl, a.inert_host⟩
    rw [List.flatMap_cons, a.chars_eq, ← List.cons_append, Quotes.through_append,
      Quotes.through_append, through_inert_cons q hhost, Option.bind_some]
    cases hzone : a.zone with
    | none =>
      rw [List.filterMap_cons_none hzone]
      exact ih (by rw [Quotes.settled_settled, h])
    | some z =>
      rw [List.filterMap_cons_some hzone, List.flatMap_cons, Quotes.through_append, through_comma,
        ← h, Option.getD_some]
      cases q.settled.through z.toList with
      | none => rfl
      | some r => exact ih rfl

theorem framed_joinTexts (zones : List String) :
    Framed (Text.joinTexts "," zones).toList ↔
      (Quotes.outside.through (zones.flatMap fun z => ',' :: z.toList)).map Quotes.settled =
        some .outside := by
  have hmap : (zones.map String.toList).flatMap (fun p => ',' :: p) =
      zones.flatMap fun z => ',' :: z.toList := by
    rw [List.flatMap_map]
  rw [framed_iff_settled, Text.joinTexts, String.toList_ofList]
  show (Quotes.outside.through (Text.join [','] _)).map _ = _ ↔ _
  rw [through_join, hmap]

theorem framed_addresses (as : List Address) :
    Framed (bracketed (as.map Address.text)).toList ↔
      Framed (Text.joinTexts "," (as.filterMap Address.zone)).toList := by
  have hmap : ((as.map Address.text).map String.toList).flatMap (fun p => ',' :: p) =
      as.flatMap fun a => ',' :: a.chars := by
    simp [List.flatMap_map, Address.text]
  have hclose (o : Option Quotes) :
      o.bind (·.through [']']) = some .outside ↔ o.map Quotes.settled = some .outside := by
    cases o with
    | none => simp
    | some q => cases q <;> simp [Quotes.through, Quotes.step, Quotes.settled]
  rw [framed_joinTexts, ← through_zones rfl, ← hmap, ← through_join, ← hclose,
    ← Quotes.through_append, toList_bracketed]
  rfl

theorem framed_address (a : Address) :
    Framed a.text.toList ↔ Framed (Text.joinTexts "," a.zone.toList).toList := by
  have hhost := through_inert (q := .outside) (by simp) a.inert_host
  rw [Address.text, String.toList_ofList, a.chars_eq, Framed, Quotes.through_append, hhost]
  cases a.zone <;> simp [Text.joinTexts, Text.join, Framed]

theorem unbroken_join {sep : List Char} {parts : List (List Char)} (hsep : Unbroken sep) :
    Unbroken (Text.join sep parts) ↔ ∀ p ∈ parts, Unbroken p := by
  induction parts using Text.join.induct with
  | case1 => simp [Text.join]
  | case2 p => simp [Text.join]
  | case3 p q ps ih =>
    rw [Text.join]
    simp only [unbroken_append, ih, hsep, List.forall_mem_cons, and_true]

theorem unbroken_address (a : Address) :
    Unbroken a.text.toList ↔ ∀ z ∈ a.zone, Unbroken z.toList := by
  rw [Address.text, String.toList_ofList, a.chars_eq, unbroken_append,
    and_iff_right a.inert_host.unbroken]
  cases a.zone <;> simp

theorem unbroken_addresses (as : List Address) :
    Unbroken (bracketed (as.map Address.text)).toList ↔
      ∀ z ∈ as.filterMap Address.zone, Unbroken z.toList := by
  have hopen : Syslog.breaksLine '[' = false := rfl
  have hclose : Unbroken [']'] := by decide
  have hcomma : Unbroken [','] := by decide
  rw [toList_bracketed, List.cons_append, unbroken_cons, unbroken_append, unbroken_join hcomma,
    and_iff_right hopen, and_iff_left hclose]
  simp only [List.forall_mem_map, unbroken_address, List.mem_filterMap, Option.mem_def]
  constructor
  · rintro h z ⟨a, ha, hz⟩
    exact h a ha z hz
  · intro h a ha z hz
    exact h z ⟨a, ha, hz⟩

/-! ## Values without addresses -/

def FieldType.isAddressFree : FieldType → Bool
  | .address => false
  | .optional t | .sequence t => t.isAddressFree
  | _ => true

theorem ne_address {t : FieldType} {v : Value} (h : t.Admits v) (hfree : t.isAddressFree = true)
    (a : Address) : v ≠ .address a := by
  induction h with
  | address => cases hfree
  | given h ih => exact ih hfree
  | _ => simp

theorem zones_of_addressFree {t : FieldType} {v : Value} (h : t.Admits v)
    (hfree : t.isAddressFree = true) : v.zones = [] := by
  induction h with
  | address => cases hfree
  | given h ih => exact ih hfree
  | sequence hvs =>
    rw [Value.zones, List.filterMap_eq_nil_iff]
    intro v hv
    split
    · exact absurd rfl (ne_address (hvs _ hv) hfree _)
    · rfl
  | _ => rfl

theorem sealed_memberText (m : Member) : Sealed (memberText m).toList := sealed_bare _

theorem sealed_rendered {t : FieldType} {v : Value} (h : t.Admits v)
    (hfree : t.isAddressFree = true) : Sealed v.rendered.toList := by
  have habsent : Sealed absentMark.toList := Inert.sealed (by decide)
  induction h with
  | text s => exact sealed_quote s
  | integer n => exact (inert_int n).sealed
  | number x => exact (inert_number x).sealed
  | flag b => cases b <;> exact Inert.sealed (by decide)
  | address => cases hfree
  | time t => exact (inert_timestamp _).sealed
  | noCountry | noCategory | absent => exact habsent
  | country bs | payload bs => exact sealed_quote _
  | category c => exact sealed_memberText _
  | textPair a b =>
    apply sealed_bracketed
    intro t ht
    simp only [Value.renderedAll, List.mem_cons, List.not_mem_nil, or_false] at ht
    rcases ht with rfl | rfl
    · exact sealed_quote a
    · exact sealed_quote b
  | score n x => exact sealed_bare _
  | command a b c => exact sealed_bare _
  | given h ih => exact ih hfree
  | sequence hvs ih =>
    apply sealed_bracketed
    intro t ht
    rw [Value.renderedAll_eq_map, List.mem_map] at ht
    obtain ⟨v, hv, rfl⟩ := ht
    exact ih v hv hfree

/-! ## Fields -/

theorem pairsText_eq (ps : List Pair) :
    pairsText ps = Text.joinTexts " " (ps.map fun p => p.1 ++ "=" ++ p.2) := rfl

theorem Kind.shownFields_addresses :
    ∀ k ∈ registered, ∀ f ∈ k.shownFields,
      f.type = .address ∨ f.type = .sequence .address ∨ f.type.isAddressFree = true := by
  decide

namespace Event

theorem shownText_addresses {f : Field} (h : f.type = .address ∨ f.type = .sequence .address)
    (v : Value) : shownText f v = .ok v.rendered := by
  have hspecial : f.type.isSpecial = false := by rcases h with h | h <;> rw [h] <;> rfl
  have hshown : f.shown = .plain := by rcases h with h | h <;> rw [Field.shown, h]
  exact shownText_plain hspecial hshown v

theorem sealed_shownText {f : Field} (hfree : f.type.isAddressFree = true) {v : Value}
    (h : f.type.Admits v) {s : String} (hs : shownText f v = .ok s) : Sealed s.toList := by
  by_cases hspecial : f.type.isSpecial = false
  · rw [shownText_ordinary hspecial] at hs
    rcases shownValue_cases h with hv | ⟨t, hv⟩ | ⟨texts, hv⟩
    · rw [hv] at hs
      cases hs
      exact sealed_rendered h hfree
    · rw [hv] at hs
      cases hs
      exact sealed_quote t
    · rw [hv] at hs
      cases hs
      apply sealed_bracketed
      intro t ht
      rw [Value.renderedAll_eq_map, List.map_map, List.mem_map] at ht
      obtain ⟨t, -, rfl⟩ := ht
      exact sealed_quote t
  · simp only [FieldType.isSpecial, Bool.not_eq_false, Bool.or_eq_true, decide_eq_true_eq] at hspecial
    -- categories and country codes have texts of their own
    unfold shownText at hs
    rcases hspecial with (ht | ht) | ht
    · rw [ht] at h hs
      cases h with
      | noCategory =>
        cases hs
        exact sealed_bare _
      | category c =>
        cases hs
        exact sealed_memberText _
    · rw [ht] at hs
      cases hs
      exact sealed_bare _
    · rw [ht] at hs
      obtain ⟨codes, -, hs⟩ := bind_ok.mp hs
      cases hs
      apply sealed_bracketed
      intro t ht
      obtain ⟨code, -, rfl⟩ := List.mem_map.mp ht
      exact sealed_bare code

theorem addresses_of_admits {v : Value} (h : Admits (.sequence .address) v) :
    ∃ as : List Address, v = .tuple (as.map .address) := by
  cases h with
  | sequence hvs =>
    rename_i vs
    have has : ∃ as : List Address, vs = as.map .address := by
      induction vs with
      | nil => exact ⟨[], rfl⟩
      | cons v vs ih =>
        obtain ⟨as, rfl⟩ := ih fun w hw => hvs w (List.mem_cons_of_mem _ hw)
        cases hvs v List.mem_cons_self with
        | address a => exact ⟨a :: as, rfl⟩
    obtain ⟨as, rfl⟩ := has
    exact ⟨as, rfl⟩

/-- Whether the text of a field is framed or unbroken is up to the zones in its value alone. -/
theorem shownText_zones {k : Kind} (hk : k ∈ Kind.registered) {f : Field} (hf : f ∈ k.shownFields)
    {v : Value} (h : f.type.Admits v) {s : String} (hs : shownText f v = .ok s) :
    (Framed s.toList ↔ Framed (Text.joinTexts "," v.zones).toList) ∧
      (Unbroken s.toList ↔ ∀ z ∈ v.zones, Unbroken z.toList) := by
  rcases Kind.shownFields_addresses k hk f hf with ht | ht | hfree
  · rw [shownText_addresses (.inl ht) v] at hs
    cases hs
    rw [ht] at h
    cases h with
    | address a =>
      refine ⟨framed_address a, ?_⟩
      simp only [Value.zones, Value.rendered, Option.mem_toList]
      exact unbroken_address a
  · rw [shownText_addresses (.inr ht) v] at hs
    cases hs
    rw [ht] at h
    obtain ⟨as, rfl⟩ := addresses_of_admits h
    have hrendered : (Value.tuple (as.map .address)).rendered = bracketed (as.map Address.text) := by
      rw [Value.rendered, Value.renderedAll_eq_map, List.map_map]
      rfl
    have hzones : (Value.tuple (as.map .address)).zones = as.filterMap Address.zone := by
      rw [Value.zones, List.filterMap_map]
      rfl
    rw [hrendered, hzones]
    exact ⟨framed_addresses as, unbroken_addresses as⟩
  · have hsealed := sealed_shownText hfree h hs
    rw [zones_of_addressFree h hfree]
    simp only [hsealed.framed, hsealed.unbroken, List.not_mem_nil, false_implies, implies_true,
      and_true, true_iff]
    rfl

theorem forall_fields_iff {e : Event} (h : e.Loaded) {P : List String → Prop} (hnil : P []) :
    (∀ f ∈ e.kind.fields, P (e.get f.name).zones) ↔
      ∀ f ∈ e.kind.shownFields, P (e.get f.name).zones := by
  refine ⟨fun hall f hf => hall f (Kind.mem_fields_iff.mpr (.inr hf)), fun hall f hf => ?_⟩
  rcases Kind.mem_fields_iff.mp hf with rfl | hshown
  · rwa [zones_of_addressFree (h.admits _ hf) rfl]
  · exact hall f hshown

end Event

end Detection
