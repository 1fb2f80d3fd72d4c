import Detection.Proofs.Address.ReadBack
import Detection.Proofs.Json.Documents
import Detection.Proofs.Record.Accepted
import Detection.Proofs.Text.Utf8
import Detection.Proofs.Time.ReadBack

/-! # Values that are given in a form of their own

A record may give a value in the form that its field keeps. It still passes through a document, which
has no form for every such value: none for seconds in the offset of a time, none for bytes that are
no text.
-/

namespace Detection

namespace FieldType

def isUtf8 (bs : List UInt8) : Bool := (Utf8.decode bs).toOption.isSome

/-- Whether a value of this type has a form in a document that stands for this value. -/
def keeps : FieldType → Value → Bool
  | .time, .time t => t.offset.all fun o => o.micros % 60000000 = 0
  | .country, .bytes bs => decide (bs.length = 2) && isUtf8 bs
  | .payload, .bytes bs => isUtf8 bs
  | .optional _, .none => true
  | .optional t, v => t.keeps v
  | .sequence t, .tuple vs => vs.all t.keeps
  | _, _ => true

/-- Whether all addresses in a value of this type have a text that they are read from. -/
def isReadable : FieldType → Value → Bool
  | .address, .address a => a.isReadable
  | .optional t, v => t.isReadable v
  | .sequence t, .tuple vs => vs.all t.isReadable
  | _, _ => true

/-- How many lists and objects stand around one another in a value of this type. -/
def height : FieldType → Nat
  | .textPair | .score | .command => 1
  | .optional t => t.height
  | .sequence t => t.height + 1
  | _ => 0

end FieldType

namespace Record

open FieldType (Admits)

theorem plainAll_ok {vs xs : List Value} : plainAll vs = .ok xs ↔ vs.map plain = xs.map .ok := by
  induction vs generalizing xs with
  | nil => cases xs <;> simp [plainAll]
  | cons v vs ih =>
    rw [plainAll, bind_ok]
    simp only [bind_ok, ih]
    cases xs with
    | nil => simp [pure, Except.pure]
    | cons x xs => simp [pure, Except.pure]

/-- The value is what a check makes of its form in a document. -/
def ComesBack (t : FieldType) (v : Value) : Prop := ∃ x, plain v = .ok x ∧ check t x = .ok v

/-! ## Values of each type -/

theorem comesBack_address {a : Address} (h : a.isReadable = true) :
    ComesBack .address (.address a) := by
  refine ⟨.text a.text, rfl, wired_ok.mpr ?_⟩
  simp only [Wire.address, Address.parse?_text h]

theorem comesBack_time (t : Timestamp) :
    ComesBack .time (.time t) ↔ FieldType.keeps .time (.time t) = true := by
  have hparse := Iso.parse_timeText_iff t
  have hwire : ComesBack .time (.time t) ↔ Iso.parse (timeText t) = .ok t := by
    unfold ComesBack
    simp only [plain, Except.ok.injEq, exists_eq_left', check, wired_ok, Wire.time]
    cases Iso.parse (timeText t) <;> simp
  rw [hwire, hparse, FieldType.keeps]
  cases t.offset with
  | none => simp
  | some o =>
    simp only [Option.mem_some_iff, forall_eq', Option.all_some, decide_eq_true_eq]
    exact Int.dvd_iff_emod_eq_zero

theorem plain_bytes {bs : List UInt8} {x : Value} :
    plain (.bytes bs) = .ok x ↔ ∃ s, Utf8.decode bs = .ok s ∧ x = .text s := by
  rw [plain, bytesText]
  cases Utf8.decode bs with
  | error f => simp
  | ok s => simp [eq_comm]

theorem isUtf8_iff {bs : List UInt8} : FieldType.isUtf8 bs = true ↔ ∃ s, Utf8.decode bs = .ok s := by
  rw [FieldType.isUtf8]
  cases Utf8.decode bs <;> simp [Except.toOption]

theorem comesBack_payload (bs : List UInt8) :
    ComesBack .payload (.bytes bs) ↔ FieldType.isUtf8 bs = true := by
  rw [isUtf8_iff]
  constructor
  · rintro ⟨x, hx, -⟩
    obtain ⟨s, hs, -⟩ := plain_bytes.mp hx
    exact ⟨s, hs⟩
  · rintro ⟨s, hs⟩
    refine ⟨.text s, plain_bytes.mpr ⟨s, hs, rfl⟩, wired_ok.mpr ?_⟩
    rw [Wire.payload, Utf8.encode_of_decode hs]

theorem comesBack_country (bs : List UInt8) :
    ComesBack .country (.bytes bs) ↔ bs.length = 2 ∧ FieldType.isUtf8 bs = true := by
  rw [isUtf8_iff]
  constructor
  · rintro ⟨x, hx, hcheck⟩
    obtain ⟨s, hs, rfl⟩ := plain_bytes.mp hx
    refine ⟨?_, s, hs⟩
    have hwire := wired_ok.mp hcheck
    simp only [Wire.country, Except.ok.injEq, Value.bytes.injEq, Country.encode] at hwire
    -- what is not two bytes becomes the unknown country, and that is two bytes
    split at hwire
    · rw [← hwire]
      assumption
    · rw [← hwire]
      rfl
  · rintro ⟨hlength, s, hs⟩
    refine ⟨.text s, plain_bytes.mpr ⟨s, hs, rfl⟩, wired_ok.mpr ?_⟩
    simp only [Wire.country, Country.encode, Utf8.encode_of_decode hs, if_pos hlength]

theorem comesBack_category (c : Category) : ComesBack .category (.member (.category c)) := by
  have htitle : Category.ofText? c.title = some c := by cases c <;> decide
  refine ⟨.text c.title, rfl, wired_ok.mpr ?_⟩
  simp only [Wire.category, htitle]

theorem plain_eq_none {v : Value} (h : plain v = .ok .none) : v = .none := by
  cases v with
  | none => rfl
  | bytes bs | buffer bs =>
    obtain ⟨s, -, ⟨⟩⟩ := plain_bytes.mp h
  | member m =>
    simp only [plain] at h
    split at h <;> cases h
  | list items | tuple items | dict entries =>
    obtain ⟨_, -, ⟨⟩⟩ := bind_ok.mp h
  | score p s =>
    obtain ⟨_, -, h⟩ := bind_ok.mp h
    obtain ⟨_, -, ⟨⟩⟩ := bind_ok.mp h
  | command c k r | endpoint c k r | multiPort c k r | group c k r =>
    obtain ⟨_, -, h⟩ := bind_ok.mp h
    obtain ⟨_, -, h⟩ := bind_ok.mp h
    obtain ⟨_, -, ⟨⟩⟩ := bind_ok.mp h
  | _ => cases h

theorem comesBack_optional {t : FieldType} {v : Value} (h : v ≠ .none) :
    ComesBack (.optional t) v ↔ ComesBack t v := by
  have hcheck {x : Value} (hx : plain v = .ok x) : check (.optional t) x = check t x := by
    cases x with
    | none => exact absurd (plain_eq_none hx) h
    | _ => rfl
  constructor
  · rintro ⟨x, hx, hback⟩
    exact ⟨x, hx, (hcheck hx).symm.trans hback⟩
  · rintro ⟨x, hx, hback⟩
    exact ⟨x, hx, (hcheck hx).trans hback⟩

theorem comesBack_sequence {t : FieldType} {vs : List Value} :
    ComesBack (.sequence t) (.tuple vs) ↔ ∀ v ∈ vs, ComesBack t v := by
  have hitems : ComesBack (.sequence t) (.tuple vs) ↔
      ∃ xs : List Value, vs.map plain = xs.map .ok ∧ xs.map (check t) = vs.map .ok := by
    constructor
    · rintro ⟨x, hx, hcheck⟩
      obtain ⟨xs, hxs, hlist⟩ := bind_ok.mp hx
      cases hlist
      obtain ⟨ws, hws, heq⟩ := map_ok.mp hcheck
      cases heq
      exact ⟨xs, plainAll_ok.mp hxs, allFrom_ok.mp hws⟩
    · rintro ⟨xs, hxs, hcheck⟩
      refine ⟨.list xs, bind_ok.mpr ⟨xs, plainAll_ok.mpr hxs, rfl⟩, ?_⟩
      exact map_ok.mpr ⟨vs, allFrom_ok.mpr hcheck, rfl⟩
  rw [hitems]
  clear hitems
  induction vs with
  | nil => simp
  | cons v vs ih =>
    rw [List.forall_mem_cons]
    refine Iff.trans ?_ (and_congr_right fun _ => ih)
    constructor
    · rintro ⟨xs, hxs, hcheck⟩
      cases xs with
      | nil => cases hxs
      | cons x xs =>
        rw [List.map_cons, List.map_cons, List.cons.injEq] at hxs hcheck
        exact ⟨⟨x, hxs.1, hcheck.1⟩, xs, hxs.2, hcheck.2⟩
    · rintro ⟨⟨x, hx, hback⟩, xs, hxs, hcheck⟩
      exact ⟨x :: xs, by rw [List.map_cons, List.map_cons, hx, hxs],
        by rw [List.map_cons, List.map_cons, hback, hcheck]⟩

theorem comesBack_iff {t : FieldType} {v : Value} (h : Admits t v) (hread : t.isReadable v = true) :
    ComesBack t v ↔ t.keeps v = true := by
  induction h with
  | text s => exact iff_of_true ⟨.text s, rfl, rfl⟩ rfl
  | integer n => exact iff_of_true ⟨.int n, rfl, rfl⟩ rfl
  | number x => exact iff_of_true ⟨.real x, rfl, rfl⟩ rfl
  | flag b => exact iff_of_true ⟨.flag b, rfl, rfl⟩ rfl
  | address a => exact iff_of_true (comesBack_address hread) rfl
  | time t => exact comesBack_time t
  | noCountry => exact iff_of_true ⟨.none, rfl, rfl⟩ rfl
  | country bs =>
    rw [comesBack_country, FieldType.keeps, Bool.and_eq_true, decide_eq_true_eq]
  | payload bs => exact comesBack_payload bs
  | noCategory => exact iff_of_true ⟨.none, rfl, rfl⟩ rfl
  | category c => exact iff_of_true (comesBack_category c) rfl
  | textPair a b => exact iff_of_true ⟨.list [.text a, .text b], rfl, rfl⟩ rfl
  | score n x => exact iff_of_true ⟨_, rfl, rfl⟩ rfl
  | command a b c => exact iff_of_true ⟨_, rfl, rfl⟩ rfl
  | absent t => exact iff_of_true ⟨.none, rfl, rfl⟩ rfl
  | @given t v h ih =>
    by_cases hnone : v = .none
    · subst hnone
      exact iff_of_true ⟨.none, rfl, rfl⟩ rfl
    · have hkeeps : (FieldType.optional t).keeps v = t.keeps v := by
        rw [FieldType.keeps]
        exact hnone
      rw [comesBack_optional hnone, ih hread, hkeeps]
  | sequence h ih =>
    rw [comesBack_sequence, FieldType.keeps, List.all_eq_true]
    rw [FieldType.isReadable, List.all_eq_true] at hread
    exact forall₂_congr fun v hv => ih v hv (hread v hv)

/-! ## Forms in a document -/

theorem exists_item {vs : List Value} {x : Value} (h : plain (.tuple vs) = .ok x) :
    ∃ xs, x = .list xs ∧ ∀ x ∈ xs, ∃ v ∈ vs, plain v = .ok x := by
  obtain ⟨xs, hxs, heq⟩ := bind_ok.mp h
  cases heq
  exact ⟨xs, rfl, fun x hx => exists_of_map_ok (plainAll_ok.mp hxs) hx⟩

/-- What a value becomes is a value that a document holds, no deeper than its type lets it be. -/
theorem plain_isDocument {t : FieldType} {v x : Value} (h : Admits t v) (hx : plain v = .ok x) :
    x.isDocument = true ∧ ∀ (d : Json.Dialect) (depth : Nat),
      (∀ n ≤ depth + t.height, d.allows n = true) → x.fits d depth = true := by
  have hbytes {bs : List UInt8} {x : Value} (hx : plain (.bytes bs) = .ok x) :
      ∃ s, x = .text s := by
    obtain ⟨s, -, rfl⟩ := plain_bytes.mp hx
    exact ⟨s, rfl⟩
  -- the depth is one more for each type that has parts
  induction h generalizing x with
  | given h ih => exact ih hx
  | @sequence t vs h ih =>
    obtain ⟨xs, rfl, hitems⟩ := exists_item hx
    have hxs : ∀ x ∈ xs, x.isDocument = true ∧ ∀ (d : Json.Dialect) (depth : Nat),
        (∀ n ≤ depth + t.height, d.allows n = true) → x.fits d depth = true := by
      intro x hx
      obtain ⟨v, hv, hplain⟩ := hitems x hx
      exact ih v hv hplain
    refine ⟨Value.areDocuments_iff.mpr fun x hx => (hxs x hx).1, fun d depth hd => ?_⟩
    rw [Value.fits, hd depth (by omega), Bool.true_and, Value.fitAll_eq_all, List.all_eq_true]
    refine fun x hx => (hxs x hx).2 d (depth + 1) fun n hn => hd n ?_
    rw [FieldType.height]
    omega
  | country bs | payload bs =>
    obtain ⟨s, rfl⟩ := hbytes hx
    exact ⟨rfl, fun d depth hd => by rw [Value.fits_text, hd depth (by omega)]⟩
  | textPair a b =>
    cases hx
    refine ⟨rfl, fun d depth hd => ?_⟩
    have hbelow := hd (depth + 1) (Nat.le_refl _)
    rw [Value.fits, hd depth (by omega)]
    simp [Value.fitAll, hbelow]
  | score n y h =>
    cases hx
    refine ⟨rfl, fun d depth hd => ?_⟩
    have hbelow := hd (depth + 1) (Nat.le_refl _)
    simp [Mapping.record, Value.fits, Value.fitEntries, Value.isText, hd depth (by omega), hbelow,
      d.overlong?_of_isShort h]
  | command a b c =>
    cases hx
    refine ⟨rfl, fun d depth hd => ?_⟩
    have hbelow := hd (depth + 1) (Nat.le_refl _)
    simp [Mapping.record, Value.fits, Value.fitEntries, Value.isText, hd depth (by omega), hbelow]
  | integer n h =>
    cases hx
    exact ⟨rfl, fun d depth hd => by rw [Value.fits_of_isShort d depth h, hd depth (by omega)]⟩
  | _ =>
    cases hx
    exact ⟨rfl, fun d depth hd => by simp [hd depth (by omega)]⟩

/-! ## Addresses that are read -/

theorem isReadable_none (t : FieldType) : t.isReadable .none = true := by
  induction t with
  | optional t ih => exact ih
  | _ => rfl

theorem check_isReadable {t : FieldType} {v w : Value} (hv : v.isDocument = true)
    (h : check t v = .ok w) : t.isReadable w = true := by
  induction t generalizing v w with
  | address =>
    rw [check, wired_ok] at h
    unfold Wire.address at h
    split at h
    · cases hv
    · split at h
      · rename_i hparse
        cases h
        exact Address.isReadable_of_parse? hparse
      · cases h
    · cases h
  | optional t ih =>
    simp only [check] at h
    split at h
    · cases h
      exact isReadable_none t
    · exact ih hv h
  | sequence t ih =>
    simp only [check] at h
    split at h
    · rename_i items
      obtain ⟨ws, hall, rfl⟩ := map_ok.mp h
      rw [FieldType.isReadable, List.all_eq_true]
      intro w hw
      obtain ⟨item, hitem, hcheck⟩ := exists_of_map_ok (allFrom_ok.mp hall) hw
      exact ih (Value.areDocuments_iff.mp hv item hitem) hcheck
    · cases h
  | _ => rfl

end Record

end Detection
