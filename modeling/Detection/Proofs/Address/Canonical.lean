import Mathlib.Data.Nat.Digits.Defs
import Detection.Rendered
import Detection.Wire
import Detection.Proofs.Address.ReadBack
import Detection.Proofs.Line.Texts

/-! # One text for each address

An address of version 6 may be written in many ways: with any of its runs of zeros left out, with
leading zeros, in either case, with its end as an address of version 4. It is shown in one of them,
and that one is read as the same address. So addresses are the same exactly when they are shown
alike.
-/

namespace Detection.Address

/-! ## What makes two addresses the same -/

/-- The address as one number, whose digits are the octets or the groups. -/
def number : Address → Nat
  | .v4 o => Nat.ofDigits 256 (o.toList.reverse.map UInt8.toNat)
  | .v6 g _ => Nat.ofDigits 65536 (g.toList.reverse.map UInt16.toNat)

def SameHost (a b : Address) : Prop :=
  a.version = b.version ∧ a.number = b.number ∧ a.zone = b.zone

theorem SameHost.refl (a : Address) : a.SameHost a := ⟨rfl, rfl, rfl⟩

theorem eq_of_ofDigits {α : Type} {base n : Nat} {digit : α → Nat} (hbase : 1 < base)
    (hdigit : ∀ a, digit a < base) (hinj : ∀ a b, digit a = digit b → a = b) {v w : Vector α n}
    (h : Nat.ofDigits base (v.toList.reverse.map digit) =
      Nat.ofDigits base (w.toList.reverse.map digit)) : v = w := by
  have hlength : (v.toList.reverse.map digit).length = (w.toList.reverse.map digit).length := by
    simp
  have hdigits : v.toList.reverse.map digit = w.toList.reverse.map digit :=
    Nat.ofDigits_inj_of_len_eq hbase hlength
      (List.forall_mem_map.mpr fun a _ => hdigit a) (List.forall_mem_map.mpr fun a _ => hdigit a) h
  have hlists := (List.map_inj_right hinj).mp hdigits
  exact Vector.toList_inj.mp (List.reverse_inj.mp hlists)

theorem sameHost_iff {a b : Address} : a.SameHost b ↔ a = b := by
  constructor
  · rintro ⟨hversion, hnumber, hzone⟩
    match a, b with
    | .v4 o, .v4 p =>
      have hoctets : o = p := eq_of_ofDigits (by decide) UInt8.toNat_lt
        (fun _ _ => UInt8.toNat_inj.mp) hnumber
      rw [hoctets]
    | .v6 g z, .v6 k y =>
      have hgroups : g = k := eq_of_ofDigits (by decide) UInt16.toNat_lt
        (fun _ _ => UInt16.toNat_inj.mp) hnumber
      have hzones : z = y := hzone
      rw [hgroups, hzones]
  · rintro rfl
    exact .refl a

/-! ## Shown and read again -/

theorem text_inj {a b : Address} (ha : a.isReadable = true) (hb : b.isReadable = true) :
    a.text = b.text ↔ a = b := by
  constructor
  · intro h
    have hread := parse?_text ha
    rw [h, parse?_text hb] at hread
    exact (Option.some.inj hread).symm
  · rintro rfl
    rfl

theorem wire_ok_iff {text : String} {a : Address} :
    Wire.address (.text text) = .ok (.address a) ↔ parse? text = some a := by
  simp only [Wire.address]
  cases parse? text with
  | none => simp
  | some b => simp

/-- An address that is read is shown as a text that is read as the same address, and no two of them
share a text. -/
theorem address_readBack {text : String} {a : Address}
    (h : Wire.address (.text text) = .ok (.address a)) :
    (∃ b, Wire.address (.text (Value.address a).rendered) = .ok (.address b) ∧ b.SameHost a) ∧
      ∀ text' a', Wire.address (.text text') = .ok (.address a') →
        (a.SameHost a' ↔ (Value.address a).rendered = (Value.address a').rendered) := by
  have ha := isReadable_of_parse? (wire_ok_iff.mp h)
  refine ⟨⟨a, wire_ok_iff.mpr (parse?_text ha), .refl a⟩, fun text' a' h' => ?_⟩
  have ha' := isReadable_of_parse? (wire_ok_iff.mp h')
  rw [sameHost_iff, Value.rendered, Value.rendered, text_inj ha ha']

/-- Leading zeros, upper case, an end of version 4, a later run of zeros left out, and a zone. -/
theorem address_readBack_spelled :
    ∃ a, Wire.address (.text "0:0:0:00aB::0.0.0.4%eth 0") = .ok (.address a) ∧
      (∃ b, Wire.address (.text (Value.address a).rendered) = .ok (.address b) ∧ b.SameHost a) ∧
      ∀ text' a', Wire.address (.text text') = .ok (.address a') →
        (a.SameHost a' ↔ (Value.address a).rendered = (Value.address a').rendered) := by
  have hread : (parse? "0:0:0:00aB::0.0.0.4%eth 0").isSome = true := by decide +kernel
  obtain ⟨a, ha⟩ := Option.isSome_iff_exists.mp hread
  have hwire := wire_ok_iff.mpr ha
  exact ⟨a, hwire, address_readBack hwire⟩

example : (parse? "0:0:0:00aB::0.0.0.4%eth 0").map text = some "::ab:0:0:0:4%eth 0" := by
  decide +kernel

end Detection.Address
