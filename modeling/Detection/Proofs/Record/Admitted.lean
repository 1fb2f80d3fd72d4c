import Detection.Record
import Detection.Proofs.Excess
import Detection.Proofs.Json.Documents
import Detection.Proofs.Success

/-! # What a field holds once its value is checked

A check that succeeds leaves a value of the field's own type, whatever a document gave it. Whole
numbers are short, as the reader lets no others through.
-/

namespace Detection

/-! ## The values of a type -/

inductive FieldType.Admits : FieldType → Value → Prop
  | text (s : String) : Admits .text (.text s)
  | integer (n : Int) (h : Excess.isShort n = true) : Admits .integer (.int n)
  | number (x : Binary64) : Admits .number (.real x)
  | flag (b : Bool) : Admits .flag (.flag b)
  | address (a : Address) : Admits .address (.address a)
  | time (t : Timestamp) : Admits .time (.time t)
  | noCountry : Admits .country .none
  | country (bs : List UInt8) : Admits .country (.bytes bs)
  | payload (bs : List UInt8) : Admits .payload (.bytes bs)
  | noCategory : Admits .category .none
  | category (c : Category) : Admits .category (.member (.category c))
  | textPair (a b : String) : Admits .textPair (.tuple [.text a, .text b])
  | score (n : Int) (x : Binary64) (h : Excess.isShort n = true) :
    Admits .score (.score (.int n) (.real x))
  | command (a b c : String) : Admits .command (.command (.text a) (.text b) (.text c))
  | absent (t : FieldType) : Admits (.optional t) .none
  | given {t : FieldType} {v : Value} (h : Admits t v) : Admits (.optional t) v
  | sequence {t : FieldType} {vs : List Value} (h : ∀ v ∈ vs, Admits t v) :
    Admits (.sequence t) (.tuple vs)

namespace FieldType

def admits : FieldType → Value → Bool
  | .text, v => (v matches .text _)
  | .integer, v =>
    match v with
    | .int n => Excess.isShort n
    | _ => false
  | .number, v => (v matches .real _)
  | .flag, v => (v matches .flag _)
  | .address, v => (v matches .address _)
  | .time, v => (v matches .time _)
  | .country, v => (v matches .none | .bytes _)
  | .payload, v => (v matches .bytes _)
  | .category, v => (v matches .none | .member (.category _))
  | .textPair, v => (v matches .tuple [.text _, .text _])
  | .score, v =>
    match v with
    | .score (.int n) (.real _) => Excess.isShort n
    | _ => false
  | .command, v => (v matches .command (.text _) (.text _) (.text _))
  | .optional t, v => (v matches .none) || t.admits v
  | .sequence t, v =>
    match v with
    | .tuple vs => vs.all t.admits
    | _ => false

theorem admits_of_admits {t : FieldType} {v : Value} (h : t.admits v = true) : t.Admits v := by
  induction t generalizing v with
  | optional t ih =>
    simp only [admits, Bool.or_eq_true] at h
    rcases h with h | h
    · split at h
      · exact .absent t
      · cases h
    · exact .given (ih h)
  | sequence t ih =>
    simp only [admits] at h
    split at h
    · exact .sequence fun v hv => ih (List.all_eq_true.mp h v hv)
    · cases h
  | integer =>
    simp only [admits] at h
    split at h
    · exact .integer _ h
    · cases h
  | score =>
    simp only [admits] at h
    split at h
    · exact .score _ _ h
    · cases h
  | _ =>
    simp only [admits] at h
    split at h <;> first | constructor | cases h

theorem admits_iff {t : FieldType} {v : Value} : t.admits v = true ↔ t.Admits v := by
  refine ⟨admits_of_admits, fun h => ?_⟩
  induction h with
  | given h ih => simp [admits, ih]
  | sequence h ih => simpa [admits] using ih
  | integer n h | score n x h => exact h
  | _ => rfl

instance (t : FieldType) (v : Value) : Decidable (t.Admits v) := decidable_of_iff _ admits_iff

namespace Admits

variable {t : FieldType} {v : Value}

theorem excess? (h : t.Admits v) (toll : Excess.Toll) : v.excess? toll none = none := by
  induction h with
  | integer n h => simp [Value.excess?, Excess.isLong_of_isShort h]
  | score n x h => simp [Value.excess?, Excess.isLong_of_isShort h]
  | sequence h ih =>
    rw [Value.excess?, Excess.inside_unlimited, Value.excessAmong?_eq_none]
    exact ih
  | given h ih => exact ih
  | _ => rfl

theorem displayExcess? (h : t.Admits v) : v.displayExcess? none = none :=
  Value.displayExcess?_unlimited v (h.excess? _)

theorem renderedExcess? (h : t.Admits v) : v.renderedExcess? none = none :=
  Value.renderedExcess?_unlimited v (h.excess? _)

end Admits

end FieldType

namespace Record

open FieldType (Admits)

/-! ## Checks that succeed -/

theorem under_ok {α : Type} {c : Checked α} {step : String} {x : α} :
    c.under step = .ok x ↔ c = .ok x :=
  mapError_ok

theorem both_ok {α β : Type} {a : Checked α} {b : Checked β} {p : α × β} :
    both a b = .ok p ↔ a = .ok p.1 ∧ b = .ok p.2 := by
  cases a <;> cases b <;> simp [both, Prod.ext_iff]

theorem allFrom_ok {α : Type} {index : Nat} {cs : List (Checked α)} {xs : List α} :
    allFrom index cs = .ok xs ↔ cs = xs.map .ok := by
  induction cs generalizing index xs with
  | nil => cases xs <;> simp [allFrom]
  | cons c cs ih =>
    rw [allFrom, map_ok]
    cases xs with
    | nil => simp
    | cons x xs =>
      simp only [both_ok, under_ok, ih, Prod.exists, List.cons.injEq, List.map_cons]
      constructor
      · rintro ⟨_, _, ⟨hc, hcs⟩, rfl, rfl⟩
        exact ⟨hc, hcs⟩
      · rintro ⟨hc, hcs⟩
        exact ⟨x, xs, ⟨hc, hcs⟩, rfl, rfl⟩

theorem wired_ok {r : Except Wire.Error Value} {v : Value} : wired r = .ok v ↔ r = .ok v := by
  cases r <;> simp [wired, wrong]

theorem part_ok {entries : Mapping} {name : String} {default : Option Value}
    {check : Value → Checked Value} {w : Value} (h : part entries name default check = .ok w) :
    (∃ v, entries.get? (.text name) = some v ∧ check v = .ok w) ∨ default = some w := by
  unfold part at h
  split at h
  · rename_i hget
    exact .inl ⟨_, hget, under_ok.mp h⟩
  · exact .inr (by simpa using h)
  · cases under_ok.mp h

/-! ## What the checks let through -/

theorem checkText_ok {v w : Value} (h : checkText v = .ok w) : ∃ s, w = .text s := by
  unfold checkText at h
  split at h
  · cases h
    exact ⟨_, rfl⟩
  · cases h

theorem checkInteger_ok {v w : Value} (h : checkInteger v = .ok w) :
    ∃ n, v = .int n ∧ w = .int n := by
  unfold checkInteger at h
  split at h
  · cases h
    exact ⟨_, rfl, rfl⟩
  · cases h

theorem checkNumber_ok {v w : Value} (h : checkNumber v = .ok w) : ∃ x, w = .real x := by
  unfold checkNumber at h
  split at h
  · cases h
    exact ⟨_, rfl⟩
  · cases h
    exact ⟨_, rfl⟩
  · cases h

theorem checkText_part (default : Option String) {entries : Mapping} {name : String} {w : Value}
    (h : part entries name (default.map .text) checkText = .ok w) : ∃ s, w = .text s := by
  rcases part_ok h with ⟨v, -, hv⟩ | hd
  · exact checkText_ok hv
  · obtain ⟨s, -, rfl⟩ := Option.map_eq_some_iff.mp hd
    exact ⟨s, rfl⟩

theorem checkScore_admits {v w : Value} {depth : Nat} (hfits : v.fits .record depth = true)
    (h : checkScore v = .ok w) : Admits .score w := by
  unfold checkScore at h
  split at h
  · obtain ⟨⟨policy, score⟩, hboth, rfl⟩ := map_ok.mp h
    obtain ⟨hpolicy, hscore⟩ := both_ok.mp hboth
    obtain ⟨p, hget, hp⟩ := (part_ok hpolicy).resolve_right (by simp)
    obtain ⟨s, -, hs⟩ := (part_ok hscore).resolve_right (by simp)
    obtain ⟨n, rfl, rfl⟩ := checkInteger_ok hp
    obtain ⟨x, rfl⟩ := checkNumber_ok hs
    exact .score n x (Value.isShort_of_fits (Value.fits_of_get? hfits hget))
  · cases h

theorem checkCommand_admits {v w : Value} (h : checkCommand v = .ok w) : Admits .command w := by
  unfold checkCommand at h
  split at h
  · obtain ⟨⟨command, code, reply⟩, hboth, rfl⟩ := map_ok.mp h
    obtain ⟨hcommand, hrest⟩ := both_ok.mp hboth
    obtain ⟨hcode, hreply⟩ := both_ok.mp hrest
    obtain ⟨a, rfl⟩ := checkText_part none hcommand
    obtain ⟨b, rfl⟩ := checkText_part (some "") hcode
    obtain ⟨c, rfl⟩ := checkText_part (some "") hreply
    exact .command a b c
  · cases h

theorem checkTextPair_admits {v w : Value} (h : checkTextPair v = .ok w) : Admits .textPair w := by
  unfold checkTextPair at h
  split at h
  · rename_i items
    split at h
    · cases h
    obtain ⟨xs, hall, rfl⟩ := map_ok.mp h
    rw [allFrom_ok] at hall
    match items, xs with
    | [a, b], [x, y] =>
      simp only [List.map_cons, List.map_nil, List.cons_append, List.nil_append, List.length_cons,
        List.length_nil, List.replicate_zero, List.cons.injEq, and_true, Nat.sub_self] at hall
      obtain ⟨s, rfl⟩ := checkText_ok hall.1
      obtain ⟨t, rfl⟩ := checkText_ok hall.2
      exact .textPair s t
    | [], xs => cases xs <;> simp [wrong, List.replicate] at hall
    | [a], [] | [a], [x] | [a], x :: y :: r => simp [wrong] at hall
    | [a, b], [] | [a, b], [x] | [a, b], x :: y :: z :: r => simp at hall
    | a :: b :: c :: r, xs => rename_i hlength; simp at hlength
  · cases h

theorem byteList_ok {items : List Value} {w : Value} (h : Wire.byteList items = .ok w) :
    ∃ bs, w = .bytes bs := by
  unfold Wire.byteList at h
  split at h
  · cases hbytes : items.mapM Wire.byte <;> rw [hbytes] at h
    · cases h
    · cases h
      exact ⟨_, rfl⟩
  · cases h

theorem check_admits {t : FieldType} {v w : Value} {depth : Nat}
    (hfits : v.fits .record depth = true) (h : check t v = .ok w) : t.Admits w := by
  -- on the type: a wire type by the forms it is read from, the others by what their parts admit
  induction t generalizing v w depth with
  | text =>
    obtain ⟨s, rfl⟩ := checkText_ok h
    exact .text s
  | integer =>
    obtain ⟨n, rfl, rfl⟩ := checkInteger_ok h
    exact .integer n (Value.isShort_of_fits hfits)
  | number =>
    obtain ⟨x, rfl⟩ := checkNumber_ok h
    exact .number x
  | flag =>
    simp only [check] at h
    split at h <;> cases h
    exact .flag _
  | address =>
    rw [check, wired_ok] at h
    unfold Wire.address at h
    split at h
    · cases h
      exact .address _
    · split at h <;> cases h
      exact .address _
    · cases h
  | time =>
    rw [check, wired_ok] at h
    simp only [Wire.time] at h
    repeat' split at h
    all_goals cases h
    all_goals exact .time _
  | country =>
    rw [check, wired_ok] at h
    unfold Wire.country at h
    split at h
    · cases h
      exact .noCountry
    · cases h
      exact .country _
    · cases h
      exact .country _
    · obtain ⟨bs, rfl⟩ := byteList_ok h
      exact .country bs
    · cases h
  | payload =>
    rw [check, wired_ok] at h
    unfold Wire.payload at h
    split at h
    · cases h
      exact .payload _
    · cases h
      exact .payload _
    · obtain ⟨bs, rfl⟩ := byteList_ok h
      exact .payload bs
    · cases h
  | category =>
    rw [check, wired_ok] at h
    unfold Wire.category at h
    split at h
    · cases h
      exact .noCategory
    · cases h
      exact .category _
    · split at h <;> cases h
      exact .category _
    · cases h
    · cases h
  | textPair => exact checkTextPair_admits h
  | score => exact checkScore_admits hfits h
  | command => exact checkCommand_admits h
  | optional t ih =>
    simp only [check] at h
    split at h
    · cases h
      exact .absent t
    · exact .given (ih hfits h)
  | sequence t ih =>
    simp only [check] at h
    split at h
    · obtain ⟨vs, hall, rfl⟩ := map_ok.mp h
      rw [allFrom_ok] at hall
      refine .sequence fun v hv => ?_
      obtain ⟨x, hx, hcheck⟩ := exists_of_map_ok hall hv
      exact ih (Value.fits_of_mem_list hfits hx) hcheck
    · cases h

/-! ## Whole records -/

theorem lookup_checkFields {entries : Mapping} {fs : List Field} {attributes : List (String × Value)}
    (h : checkFields entries fs = .ok attributes) (hnodup : (fs.map Field.name).Nodup) {f : Field}
    (hf : f ∈ fs) :
    ∃ v, attributes.lookup f.name = some v ∧
      part entries f.name f.default (check f.type) = .ok v := by
  induction fs generalizing attributes with
  | nil => cases hf
  | cons g fs ih =>
    obtain ⟨⟨x, xs⟩, hboth, rfl⟩ := map_ok.mp h
    obtain ⟨hx, hxs⟩ := both_ok.mp hboth
    obtain ⟨v, hv, rfl⟩ := map_ok.mp hx
    rw [List.map_cons, List.nodup_cons] at hnodup
    rcases List.mem_cons.mp hf with rfl | hf
    · exact ⟨v, by simp, hv⟩
    · obtain ⟨w, hlookup, hw⟩ := ih hxs hnodup.2 hf
      refine ⟨w, ?_, hw⟩
      have hne : f.name ≠ g.name := fun heq => hnodup.1 (heq ▸ List.mem_map_of_mem hf)
      simp [List.lookup_cons, beq_false_of_ne hne, hlookup]

end Record

end Detection
