import Mathlib.Algebra.Group.Int.Defs
import Mathlib.Algebra.Group.Nat.Defs
import Detection.Country
import Detection.Proofs.Success
import Detection.Rendered

/-! # Which values have texts

Numbers of too many digits have none, and values that take more calls inside each other than there is
room for. Everything else has.
-/

namespace Detection

/-! ## Numbers -/

namespace Excess

theorem length_toString_ofNat (n : Nat) : (toString n).length = (Nat.toDigits 10 n).length := by
  rw [Nat.toString_eq_ofList_toDigits, String.length_ofList]

theorem length_digits_le_iff {n k : Nat} (hk : 0 < k) : (toString n).length ≤ k ↔ n < 10 ^ k := by
  rw [length_toString_ofNat, Nat.length_toDigits_le_iff (by decide) hk]

theorem isLong_iff {n : Int} : isLong n = true ↔ 10 ^ maxDigits ≤ n.natAbs := by
  have hpos : 0 < maxDigits := by decide
  rw [isLong, decide_eq_true_eq, ← Nat.not_le, length_digits_le_iff hpos, Nat.not_lt]

theorem isLong_ten_pow : isLong (10 ^ maxDigits) = true := by
  rw [isLong_iff, Int.natAbs_pow]
  generalize maxDigits = k
  exact Nat.le_refl _

theorem isShort_iff {n : Int} :
    isShort n = true ↔ n.natAbs < 10 ^ (if n < 0 then maxDigits - 1 else maxDigits) := by
  have hpos : 0 < maxDigits - 1 := by decide
  rw [isShort, decide_eq_true_eq]
  cases n with
  | ofNat n =>
    rw [if_neg (by simp), ← length_digits_le_iff (by decide)]
    rfl
  | negSucc n =>
    rw [if_pos (Int.negSucc_lt_zero n), ← length_digits_le_iff hpos]
    change ("-" ++ toString (n + 1)).length ≤ _ ↔ (toString (n + 1)).length ≤ _
    rw [String.length_append, show "-".length = 1 from rfl]
    omega

theorem isLong_of_isShort {n : Int} (h : isShort n = true) : isLong n = false := by
  rw [isShort_iff] at h
  rw [Bool.eq_false_iff, ne_eq, isLong_iff, Nat.not_le]
  refine Nat.lt_of_lt_of_le h (Nat.pow_le_pow_right (by decide) ?_)
  split <;> omega

theorem isShort_of_lt {n : Int} (h : n.natAbs < 10 ^ 20) : isShort n = true := by
  refine isShort_iff.mpr (Nat.lt_of_lt_of_le h (Nat.pow_le_pow_right (by decide) ?_))
  split <;> decide

/-! ## Calls inside each other -/

@[simp] theorem inside_unlimited (calls : Nat) (doing : String)
    (rest : Option Nat → Option Excess) : inside none calls doing rest = rest none := rfl

end Excess

/-! ## Texts -/

namespace Value

theorem format_ok_iff {room : Option Nat} {v : Value} {text : String} :
    v.format room = .ok text ↔ v.renderedExcess? room = Option.none ∧ text = v.rendered := by
  unfold format
  cases v.renderedExcess? room with
  | none => simp [eq_comm]
  | some cause => simp

theorem format_eq_ok {room : Option Nat} {v : Value} (h : v.renderedExcess? room = Option.none) :
    v.format room = .ok v.rendered :=
  format_ok_iff.mpr ⟨h, rfl⟩

theorem excessAmong?_eq_none {t : Excess.Toll} {room : Option Nat} {vs : List Value} :
    excessAmong? t room vs = Option.none ↔ ∀ v ∈ vs, v.excess? t room = Option.none := by
  induction vs with
  | nil => simp [excessAmong?]
  | cons v vs ih => simp [excessAmong?, Option.or_eq_none_iff, ih]

theorem renderedExcessAmong?_eq_none {room : Option Nat} {vs : List Value} :
    renderedExcessAmong? room vs = Option.none ↔
      ∀ v ∈ vs, v.renderedExcess? room = Option.none := by
  induction vs with
  | nil => simp [renderedExcessAmong?]
  | cons v vs ih => simp [renderedExcessAmong?, Option.or_eq_none_iff, ih]

def nested : Nat → Value → Value
  | 0, v => v
  | n + 1, v => .list [nested n v]

/-! ## Where there is no limit

Then a value has no text only for the numbers in it, and a literal shows them all. -/

theorem displayExcess?_unlimited : ∀ v : Value, v.literalExcess? Option.none = Option.none →
    v.displayExcess? Option.none = Option.none
  | .score p s, h => by
    simp only [literalExcess?, excess?, Excess.inside_unlimited, Option.or_eq_none_iff] at h
    simp [displayExcess?, displayExcess?_unlimited p h.1, literalExcess?, h.2]
  | .command c k r, h => by
    simp only [literalExcess?, excess?, Excess.inside_unlimited, Option.or_eq_none_iff] at h
    simp [displayExcess?, displayExcess?_unlimited c h.1, displayExcess?_unlimited k h.2.1,
      displayExcess?_unlimited r h.2.2]
  | .none, h | .flag _, h | .int _, h | .real _, h | .text _, h | .broken _, h | .bytes _, h
  | .buffer _, h | .address _, h | .time _, h | .member _, h | .list _, h | .tuple _, h
  | .dict _, h | .endpoint _ _ _, h | .multiPort _ _ _, h | .group _ _ _, h => h

theorem renderedExcess?_unlimited : ∀ v : Value, v.literalExcess? Option.none = Option.none →
    v.renderedExcess? Option.none = Option.none
  | .list items, h | .tuple items, h => by
    simp only [literalExcess?, excess?, Excess.inside_unlimited, excessAmong?_eq_none] at h
    rw [renderedExcess?, Excess.inside_unlimited, renderedExcessAmong?_eq_none]
    exact fun v hv => renderedExcess?_unlimited v (h v hv)
  | .none, h | .flag _, h | .int _, h | .real _, h | .text _, h | .broken _, h | .bytes _, h
  | .buffer _, h | .address _, h | .time _, h | .member _, h | .dict _, h | .score _ _, h
  | .command _ _ _, h | .endpoint _ _ _, h | .multiPort _ _ _, h | .group _ _ _, h =>
    displayExcess?_unlimited _ h

/-! ## What goes wrong without a limit -/

mutual

theorem excess?_unlimited (t : Excess.Toll) : ∀ (v : Value) {cause : Excess},
    v.excess? t Option.none = some cause → cause = .digits
  | .int n, cause, h => by
    rw [excess?] at h
    split at h <;> cases h
    rfl
  | .list items, _, h | .tuple items, _, h => excessAmong?_unlimited t items h
  | .dict entries, _, h => excessInside?_unlimited t entries h
  | .score p s, _, h => by
    rcases Option.or_eq_some_iff.mp h with h | ⟨-, h⟩
    · exact excess?_unlimited t p h
    · exact excess?_unlimited t s h
  | .command a b c, _, h | .endpoint a b c, _, h => by
    rcases Option.or_eq_some_iff.mp h with h | ⟨-, h⟩
    · exact excess?_unlimited t a h
    · rcases Option.or_eq_some_iff.mp h with h | ⟨-, h⟩
      · exact excess?_unlimited t b h
      · exact excess?_unlimited t c h
  | .multiPort a ports c, _, h => by
    rcases Option.or_eq_some_iff.mp h with h | ⟨-, h⟩
    · exact excess?_unlimited t a h
    · rcases Option.or_eq_some_iff.mp h with h | ⟨-, h⟩
      · exact excessAmong?_unlimited t ports h
      · exact excess?_unlimited t c h
  | .group addrs ports codes, _, h => by
    rcases Option.or_eq_some_iff.mp h with h | ⟨-, h⟩
    · exact excessAmong?_unlimited t addrs h
    · rcases Option.or_eq_some_iff.mp h with h | ⟨-, h⟩
      · exact excessAmong?_unlimited t ports h
      · exact excessAmong?_unlimited t codes h

theorem excessAmong?_unlimited (t : Excess.Toll) : ∀ (vs : List Value) {cause : Excess},
    excessAmong? t Option.none vs = some cause → cause = .digits
  | v :: vs, _, h => by
    rcases Option.or_eq_some_iff.mp h with h | ⟨-, h⟩
    · exact excess?_unlimited t v h
    · exact excessAmong?_unlimited t vs h

theorem excessInside?_unlimited (t : Excess.Toll) : ∀ (es : List (Value × Value)) {cause : Excess},
    excessInside? t Option.none es = some cause → cause = .digits
  | (key, v) :: es, _, h => by
    rcases Option.or_eq_some_iff.mp h with h | ⟨-, h⟩
    · exact excess?_unlimited t key h
    · rcases Option.or_eq_some_iff.mp h with h | ⟨-, h⟩
      · exact excess?_unlimited t v h
      · exact excessInside?_unlimited t es h

end

theorem digits_of_displayExcess? : ∀ (v : Value) {cause : Excess},
    v.displayExcess? Option.none = some cause → cause = .digits
  | .score p s, _, h => by
    rcases Option.or_eq_some_iff.mp h with h | ⟨-, h⟩
    · exact digits_of_displayExcess? p h
    · exact excess?_unlimited _ s h
  | .command a b c, _, h => by
    rcases Option.or_eq_some_iff.mp h with h | ⟨-, h⟩
    · exact digits_of_displayExcess? a h
    · rcases Option.or_eq_some_iff.mp h with h | ⟨-, h⟩
      · exact digits_of_displayExcess? b h
      · exact digits_of_displayExcess? c h
  | .none, _, h | .flag _, _, h | .int _, _, h | .real _, _, h | .text _, _, h | .broken _, _, h
  | .bytes _, _, h | .buffer _, _, h | .address _, _, h | .time _, _, h | .member _, _, h
  | .list _, _, h | .tuple _, _, h | .dict _, _, h | .endpoint _ _ _, _, h
  | .multiPort _ _ _, _, h | .group _ _ _, _, h => excess?_unlimited _ _ h

end Value

/-! ## Country codes -/

namespace Country

theorem attempt_ok {room : Option Nat} {raw : Value} {code : String}
    (h : attempt room raw = .ok code) : code = decode raw := by
  unfold attempt at h
  unfold decode
  split at h
  · cases h
    rfl
  · split at h <;> cases h
    rfl

theorem cause_of_read {raw : Value} {cause : Fallback} (h : read raw = .error cause) :
    cause = .notTwoBytes raw ∨ ∃ bs, cause = .notText bs := by
  cases raw with
  | bytes bs | buffer bs =>
    by_cases hlength : bs.length = 2
    · cases hdecode : Utf8.decode bs <;> simp [read, hlength, hdecode] at h
      exact .inr ⟨bs, h.symm⟩
    · simp only [read, if_neg hlength] at h
      exact .inl (Except.error.inj h).symm
  | _ =>
    cases h
    exact .inl rfl

theorem attempt_of_shown {room : Option Nat} {raw : Value} (h : raw.literalExcess? room = none) :
    attempt room raw = .ok (decode raw) := by
  unfold attempt decode
  cases hread : read raw with
  | ok code => rfl
  | error cause =>
    have hcause : cause.excess? room = none := by
      rcases cause_of_read hread with rfl | ⟨bs, rfl⟩
      · exact h
      · rfl
    simp only [hcause]

theorem attempt_ok_iff {room : Option Nat} {raw : Value} {code : String} :
    attempt room raw = .ok code ↔ raw.literalExcess? room = none ∧ code = decode raw := by
  refine ⟨fun h => ⟨?_, attempt_ok h⟩, fun ⟨hshown, hcode⟩ => hcode ▸ attempt_of_shown hshown⟩
  cases raw with
  | bytes bs | buffer bs => rfl
  | _ =>
    simp only [attempt, read, Fallback.excess?] at h
    split at h
    · assumption
    · cases h

theorem attemptAll_of_shown {room : Option Nat} {raws : List Value}
    (h : ∀ raw ∈ raws, raw.literalExcess? room = none) :
    attemptAll room raws = .ok (decodeAll raws) := by
  refine mapM_ok.mpr ?_
  rw [decodeAll, List.map_map]
  exact List.map_congr_left fun raw hraw => attempt_of_shown (h raw hraw)

theorem attemptAll_ok {room : Option Nat} {raws : List Value} {codes : List String}
    (h : attemptAll room raws = .ok codes) : codes = decodeAll raws := by
  have heach : raws.map decode = codes.map id :=
    map_eq_of_map_ok (fun _ _ h => (attempt_ok h).symm) (mapM_ok.mp h)
  rw [decodeAll, heach, List.map_id]

end Country

end Detection
