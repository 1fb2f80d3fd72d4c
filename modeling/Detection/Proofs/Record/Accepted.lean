import Detection.Proofs.Loader.Through

/-! # The forms in which a document writes the values of a field

Which values a check lets through, without the check: one form or a few for each type.
-/

namespace Detection

/-- Bytes as a document writes them that keeps them apart from text. -/
def Value.ofBytes (bs : List UInt8) : Value := .list (bs.map fun b => .int b.toNat)

inductive FieldType.Accepts : FieldType → Value → Prop
  | text (s : String) : Accepts .text (.text s)
  | integer (n : Int) : Accepts .integer (.int n)
  | number (x : Binary64) : Accepts .number (.real x)
  | wholeNumber (n : Int) : Accepts .number (.int n)
  | flag (b : Bool) : Accepts .flag (.flag b)
  | address {s : String} {a : Address} (h : Address.parse? s = some a) : Accepts .address (.text s)
  | timeText {s : String} {t : Timestamp} (h : Iso.parse s = .ok t) : Accepts .time (.text s)
  | timeCount {n : Int} {t : Timestamp} (h : Timestamp.ofNanos n = .ok t) : Accepts .time (.int n)
  | noCountry : Accepts .country .none
  | country (s : String) : Accepts .country (.text s)
  | countryBytes (bs : List UInt8) : Accepts .country (.ofBytes bs)
  | payload (s : String) : Accepts .payload (.text s)
  | payloadBytes (bs : List UInt8) : Accepts .payload (.ofBytes bs)
  | noCategory : Accepts .category .none
  | category {s : String} {c : Category} (h : Category.ofText? s = some c) :
    Accepts .category (.text s)
  | textPair (a b : String) : Accepts .textPair (.list [.text a, .text b])
  | score {entries : Mapping} {n : Int} {x : Value}
    (hpolicy : entries.get? (.text "policy_id") = some (.int n))
    (hscore : entries.get? (.text "score") = some x) (hx : Accepts .number x) :
    Accepts .score (.dict entries)
  | command {entries : Mapping} {s : String}
    (hcommand : entries.get? (.text "command") = some (.text s))
    (hcode : ∀ v, entries.get? (.text "reply_code") = some v → Accepts .text v)
    (hreply : ∀ v, entries.get? (.text "reply_msg") = some v → Accepts .text v) :
    Accepts .command (.dict entries)
  | absent (t : FieldType) : Accepts (.optional t) .none
  | given {t : FieldType} {v : Value} (h : Accepts t v) : Accepts (.optional t) v
  | sequence {t : FieldType} {items : List Value} (h : ∀ v ∈ items, Accepts t v) :
    Accepts (.sequence t) (.list items)

/-! ## Bytes -/

namespace Value

theorem isDocument_ofBytes (bs : List UInt8) : (ofBytes bs).isDocument = true :=
  areDocuments_iff.mpr (List.forall_mem_map.mpr fun _ _ => rfl)

theorem fits_ofBytes {d : Json.Dialect} {depth : Nat} (hdepth : d.allows depth = true)
    (hbelow : d.allows (depth + 1) = true) (bs : List UInt8) :
    (ofBytes bs).fits d depth = true := by
  rw [ofBytes, fits, hdepth, Bool.true_and, fitAll_eq_all, List.all_map, List.all_eq_true]
  intro b _
  have hshort : Excess.isShort (b.toNat : Int) = true :=
    Excess.isShort_of_lt (Nat.lt_trans b.toNat_lt (by decide))
  exact (Value.fits_of_isShort d _ hshort).trans hbelow

end Value

namespace Wire

theorem byte_int (n : Int) (b : UInt8) : byte (.int n) = .ok b ↔ n = b.toNat := by
  have hb := b.toNat_lt
  simp only [byte, Value.integer?]
  split
  · rename_i hn
    rw [Except.ok.injEq]
    constructor
    · intro h
      rw [← h]
      simp
      omega
    · rintro rfl
      simp
  · simp only [reduceCtorEq, false_iff]
    omega

theorem isInteger_iff {v : Value} (h : v.isDocument = true) :
    v.isInteger = true ↔ ∃ n, v = .int n := by
  cases v <;> first | cases h; done | simp [Value.isInteger]

theorem byteList_document {items : List Value} (h : Value.areDocuments items = true) {w : Value} :
    byteList items = .ok w ↔ ∃ bs, .list items = Value.ofBytes bs ∧ w = .bytes bs := by
  rw [Value.areDocuments_iff] at h
  -- item by item, along the bytes
  have hbytes (bs : List UInt8) : items.map byte = bs.map .ok ∧ items.all Value.isInteger = true ↔
      items = bs.map fun b => .int b.toNat := by
    induction items generalizing bs with
    | nil => cases bs <;> simp
    | cons v vs ih =>
      obtain ⟨hv, hvs⟩ := List.forall_mem_cons.mp h
      cases bs with
      | nil => simp
      | cons b bs =>
        rw [List.map_cons, List.map_cons, List.map_cons, List.cons.injEq, List.cons.injEq, ← ih hvs,
          List.all_cons, Bool.and_eq_true, isInteger_iff hv]
        constructor
        · rintro ⟨⟨hb, hbs⟩, ⟨n, rfl⟩, hall⟩
          exact ⟨congrArg Value.int ((byte_int n b).mp hb), hbs, hall⟩
        · rintro ⟨rfl, hbs, hall⟩
          exact ⟨⟨(byte_int _ b).mpr rfl, hbs⟩, ⟨_, rfl⟩, hall⟩
  simp only [Value.ofBytes, Value.list.injEq, ← hbytes]
  unfold byteList
  split
  · rename_i hall
    simp only [bind_ok, mapM_ok, hall, and_true]
    constructor
    · rintro ⟨bs, hbs, hw⟩
      exact ⟨bs, hbs, (Except.ok.inj hw).symm⟩
    · rintro ⟨bs, hbs, rfl⟩
      exact ⟨bs, hbs, rfl⟩
  · rename_i hall
    simp [hall]

theorem byteList_ofBytes (bs : List UInt8) :
    byteList (bs.map fun b => .int b.toNat) = .ok (.bytes bs) :=
  (byteList_document (Value.isDocument_ofBytes bs)).mpr ⟨bs, rfl, rfl⟩

theorem exists_byteList_iff {items : List Value} (h : Value.areDocuments items = true) :
    (∃ w, byteList items = .ok w) ↔ ∃ bs, .list items = Value.ofBytes bs := by
  simp only [byteList_document h]
  constructor
  · rintro ⟨_, bs, hbs, -⟩
    exact ⟨bs, hbs⟩
  · rintro ⟨bs, hbs⟩
    exact ⟨_, bs, hbs, rfl⟩

/-! ## Which wire forms are read -/

section Forms

open FieldType (Accepts)

variable {v : Value} (hv : v.isDocument = true)

include hv

theorem exists_address_iff : (∃ w, address v = .ok w) ↔ Accepts .address v := by
  constructor
  · rintro ⟨w, hw⟩
    unfold address at hw
    split at hw
    · cases hv
    · split at hw
      · exact .address ‹_›
      · cases hw
    · cases hw
  · intro h
    cases h with
    | address h => exact ⟨_, by simp only [address, h]; rfl⟩

theorem exists_time_iff : (∃ w, time v = .ok w) ↔ Accepts .time v := by
  constructor
  · rintro ⟨w, hw⟩
    simp only [time] at hw
    split at hw
    · cases hv
    · split at hw
      · exact .timeCount ‹_›
      · cases hw
    · cases hv
    · split at hw
      · exact .timeText ‹_›
      · cases hw
    · cases hw
  · intro h
    cases h with
    | timeText h => exact ⟨_, by simp only [time, h]; rfl⟩
    | timeCount h => exact ⟨_, by simp only [time, h]; rfl⟩

theorem exists_country_iff : (∃ w, country v = .ok w) ↔ Accepts .country v := by
  constructor
  · rintro ⟨w, hw⟩
    unfold country at hw
    split at hw
    · exact .noCountry
    · cases hv
    · exact .country _
    · obtain ⟨bs, hbs⟩ := (exists_byteList_iff hv).mp ⟨w, hw⟩
      rw [hbs]
      exact .countryBytes bs
    · cases hw
  · intro h
    cases h with
    | noCountry => exact ⟨_, rfl⟩
    | country s => exact ⟨_, rfl⟩
    | countryBytes bs => exact (exists_byteList_iff hv).mpr ⟨bs, rfl⟩

theorem exists_payload_iff : (∃ w, payload v = .ok w) ↔ Accepts .payload v := by
  constructor
  · rintro ⟨w, hw⟩
    unfold payload at hw
    split at hw
    · cases hv
    · exact .payload _
    · obtain ⟨bs, hbs⟩ := (exists_byteList_iff hv).mp ⟨w, hw⟩
      rw [hbs]
      exact .payloadBytes bs
    · cases hw
  · intro h
    cases h with
    | payload s => exact ⟨_, rfl⟩
    | payloadBytes bs => exact (exists_byteList_iff hv).mpr ⟨bs, rfl⟩

theorem exists_category_iff : (∃ w, category v = .ok w) ↔ Accepts .category v := by
  constructor
  · rintro ⟨w, hw⟩
    unfold category at hw
    split at hw
    · exact .noCategory
    · cases hv
    · split at hw
      · exact .category ‹_›
      · cases hw
    · cases hw
    · cases hw
  · intro h
    cases h with
    | noCategory => exact ⟨_, rfl⟩
    | category h => exact ⟨_, by simp only [category, h]; rfl⟩

end Forms

end Wire

namespace Record

open FieldType (Accepts)

/-! ## Which checks succeed -/

theorem exists_allFrom_iff {α : Type} {cs : List (Checked α)} {index : Nat} :
    (∃ xs, allFrom index cs = .ok xs) ↔ ∀ c ∈ cs, ∃ x, c = .ok x := by
  simp only [allFrom_ok]
  induction cs with
  | nil => exact ⟨by simp, fun _ => ⟨[], rfl⟩⟩
  | cons c cs ih =>
    rw [List.forall_mem_cons, ← ih]
    constructor
    · rintro ⟨xs, hxs⟩
      cases xs with
      | nil => cases hxs
      | cons x xs =>
        cases hxs
        exact ⟨⟨x, rfl⟩, xs, rfl⟩
    · rintro ⟨⟨x, rfl⟩, xs, rfl⟩
      exact ⟨x :: xs, rfl⟩

theorem exists_both_iff {α β : Type} {a : Checked α} {b : Checked β} :
    (∃ p, both a b = .ok p) ↔ (∃ x, a = .ok x) ∧ ∃ y, b = .ok y := by
  simp only [both_ok, Prod.exists]
  constructor
  · rintro ⟨x, y, hx, hy⟩
    exact ⟨⟨x, hx⟩, y, hy⟩
  · rintro ⟨⟨x, hx⟩, y, hy⟩
    exact ⟨x, y, hx, hy⟩

theorem exists_map_iff {α β : Type} {c : Checked α} {f : α → β} :
    (∃ y, c.map f = .ok y) ↔ ∃ x, c = .ok x := by
  simp only [map_ok]
  constructor
  · rintro ⟨_, x, hx, -⟩
    exact ⟨x, hx⟩
  · rintro ⟨x, hx⟩
    exact ⟨f x, x, hx, rfl⟩

theorem exists_part_iff {entries : Mapping} {name : String} {default : Option Value}
    {check : Value → Checked Value} :
    (∃ w, part entries name default check = .ok w) ↔
      (∀ v, entries.get? (.text name) = some v → ∃ w, check v = .ok w) ∧
        (entries.get? (.text name) = none → default ≠ none) := by
  unfold part
  cases entries.get? (.text name) with
  | some v => simp [under_ok]
  | none => cases default <;> simp [under_ok, wrong]

theorem exists_checkText_iff {v : Value} : (∃ w, checkText v = .ok w) ↔ Accepts .text v := by
  constructor
  · rintro ⟨w, hw⟩
    unfold checkText at hw
    split at hw
    · exact .text _
    · cases hw
  · rintro ⟨s⟩
    exact ⟨_, rfl⟩

theorem exists_checkInteger_iff {v : Value} :
    (∃ w, checkInteger v = .ok w) ↔ Accepts .integer v := by
  constructor
  · rintro ⟨w, hw⟩
    unfold checkInteger at hw
    split at hw
    · exact .integer _
    · cases hw
  · rintro ⟨_⟩
    exact ⟨_, rfl⟩

theorem exists_checkNumber_iff {v : Value} : (∃ w, checkNumber v = .ok w) ↔ Accepts .number v := by
  constructor
  · rintro ⟨w, hw⟩
    unfold checkNumber at hw
    split at hw
    · exact .number _
    · exact .wholeNumber _
    · cases hw
  · intro h
    cases h with
    | number x => exact ⟨_, rfl⟩
    | wholeNumber n => exact ⟨_, rfl⟩

theorem accepts_integer_iff {v : Value} : Accepts .integer v ↔ ∃ n, v = .int n := by
  constructor
  · intro h
    cases h with
    | integer n => exact ⟨n, rfl⟩
  · rintro ⟨n, rfl⟩
    exact .integer n

theorem accepts_text_iff {v : Value} : Accepts .text v ↔ ∃ s, v = .text s := by
  constructor
  · rintro ⟨s⟩
    exact ⟨s, rfl⟩
  · rintro ⟨s, rfl⟩
    exact .text s

theorem exists_checkScore_iff {v : Value} : (∃ w, checkScore v = .ok w) ↔ Accepts .score v := by
  constructor
  · rintro ⟨w, hw⟩
    unfold checkScore at hw
    split at hw
    · rename_i entries
      obtain ⟨hpolicy, hscore⟩ := exists_both_iff.mp (exists_map_iff.mp ⟨w, hw⟩)
      rw [exists_part_iff] at hpolicy hscore
      obtain ⟨p, hp⟩ := Option.ne_none_iff_exists'.mp fun h => hpolicy.2 h rfl
      obtain ⟨x, hx⟩ := Option.ne_none_iff_exists'.mp fun h => hscore.2 h rfl
      obtain ⟨n, rfl⟩ := accepts_integer_iff.mp (exists_checkInteger_iff.mp (hpolicy.1 p hp))
      exact .score hp hx (exists_checkNumber_iff.mp (hscore.1 x hx))
    · cases hw
  · intro h
    cases h with
    | score hp hx hnumber =>
      apply exists_map_iff.mpr
      apply exists_both_iff.mpr
      simp only [exists_part_iff, hp, hx, Option.some.injEq, forall_eq', reduceCtorEq, false_implies,
        and_true]
      exact ⟨⟨_, rfl⟩, exists_checkNumber_iff.mpr hnumber⟩

theorem exists_checkCommand_iff {v : Value} :
    (∃ w, checkCommand v = .ok w) ↔ Accepts .command v := by
  have hblank (entries : Mapping) (name : String) :
      (∃ w, part entries name (some (.text "")) checkText = .ok w) ↔
        ∀ v, entries.get? (.text name) = some v → Accepts .text v := by
    simp [exists_part_iff, exists_checkText_iff]
  constructor
  · rintro ⟨w, hw⟩
    unfold checkCommand at hw
    split at hw
    · obtain ⟨hcommand, hrest⟩ := exists_both_iff.mp (exists_map_iff.mp ⟨w, hw⟩)
      obtain ⟨hcode, hreply⟩ := exists_both_iff.mp hrest
      rw [exists_part_iff] at hcommand
      obtain ⟨c, hc⟩ := Option.ne_none_iff_exists'.mp fun h => hcommand.2 h rfl
      obtain ⟨s, rfl⟩ := accepts_text_iff.mp (exists_checkText_iff.mp (hcommand.1 c hc))
      exact .command hc ((hblank _ _).mp hcode) ((hblank _ _).mp hreply)
    · cases hw
  · intro h
    cases h with
    | command hc hcode hreply =>
      apply exists_map_iff.mpr
      refine exists_both_iff.mpr ⟨?_, exists_both_iff.mpr ⟨?_, ?_⟩⟩
      · simp only [exists_part_iff, hc, Option.some.injEq, forall_eq', reduceCtorEq, false_implies,
          and_true]
        exact ⟨_, rfl⟩
      · exact (hblank _ _).mpr hcode
      · exact (hblank _ _).mpr hreply

theorem exists_checkTextPair_iff {v : Value} :
    (∃ w, checkTextPair v = .ok w) ↔ Accepts .textPair v := by
  constructor
  · rintro ⟨w, hw⟩
    unfold checkTextPair at hw
    split at hw
    · rename_i items
      split at hw
      · cases hw
      have hall := exists_allFrom_iff.mp (exists_map_iff.mp ⟨w, hw⟩)
      match items with
      | [] | [_] =>
        obtain ⟨x, hx⟩ := hall (wrong .required) (by simp)
        cases hx
      | [a, b] =>
        obtain ⟨s, rfl⟩ := accepts_text_iff.mp (exists_checkText_iff.mp (hall (checkText a) (by simp)))
        obtain ⟨t, rfl⟩ := accepts_text_iff.mp (exists_checkText_iff.mp (hall (checkText b) (by simp)))
        exact .textPair s t
      | _ :: _ :: _ :: _ => rename_i hlength; simp at hlength
    · cases hw
  · rintro ⟨s, t⟩
    exact ⟨_, rfl⟩

theorem exists_wired_iff {r : Except Wire.Error Value} :
    (∃ w, wired r = .ok w) ↔ ∃ w, r = .ok w := by
  simp only [wired_ok]

theorem exists_check_iff {t : FieldType} {v : Value} (hv : v.isDocument = true) :
    (∃ w, check t v = .ok w) ↔ t.Accepts v := by
  induction t generalizing v with
  | text => exact exists_checkText_iff
  | integer => exact exists_checkInteger_iff
  | number => exact exists_checkNumber_iff
  | flag =>
    constructor
    · rintro ⟨w, hw⟩
      simp only [check] at hw
      split at hw
      · exact .flag _
      · cases hw
    · rintro ⟨b⟩
      exact ⟨_, rfl⟩
  | address => exact exists_wired_iff.trans (Wire.exists_address_iff hv)
  | time => exact exists_wired_iff.trans (Wire.exists_time_iff hv)
  | country => exact exists_wired_iff.trans (Wire.exists_country_iff hv)
  | payload => exact exists_wired_iff.trans (Wire.exists_payload_iff hv)
  | category => exact exists_wired_iff.trans (Wire.exists_category_iff hv)
  | textPair => exact exists_checkTextPair_iff
  | score => exact exists_checkScore_iff
  | command => exact exists_checkCommand_iff
  | optional t ih =>
    constructor
    · rintro ⟨w, hw⟩
      simp only [check] at hw
      split at hw
      · exact .absent t
      · exact .given ((ih hv).mp ⟨w, hw⟩)
    · intro h
      simp only [check]
      split
      · exact ⟨_, rfl⟩
      · rename_i hne
        cases h with
        | absent => exact absurd rfl hne
        | given h => exact (ih hv).mpr h
  | sequence t ih =>
    constructor
    · rintro ⟨w, hw⟩
      simp only [check] at hw
      split at hw
      · rename_i items
        have hall := exists_allFrom_iff.mp (exists_map_iff.mp ⟨w, hw⟩)
        refine .sequence fun x hx => ?_
        exact (ih (Value.areDocuments_iff.mp hv x hx)).mp (hall _ (List.mem_map_of_mem hx))
      · cases hw
    · intro h
      cases h with
      | sequence hitems =>
        apply exists_map_iff.mpr
        apply exists_allFrom_iff.mpr
        rintro c hc
        obtain ⟨x, hx, rfl⟩ := List.mem_map.mp hc
        exact (ih (Value.areDocuments_iff.mp hv x hx)).mpr (hitems x hx)

end Record

end Detection
