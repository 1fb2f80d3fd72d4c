import Detection.Proofs.Json.RoundTrip

/-! # What is read is a document value

The reader gives an object no key twice, and leaves no surrogate next to one it would pair up with.
So what it gives can be written, and what the reader of records gives can be read again.
-/

namespace Detection.Json

/-! ## Points of strings -/

theorem hexValue?_lt {c : Char} {n : Nat} (h : hexValue? c = some n) : n < 16 := by
  have hle {a b : Char} : a ≤ b ↔ a.toNat ≤ b.toNat := by
    rw [Char.le_def, UInt32.le_iff_toNat_le]
    rfl
  have hends : '0'.toNat = 48 ∧ '9'.toNat = 57 ∧ 'a'.toNat = 97 ∧ 'f'.toNat = 102 ∧
      'A'.toNat = 65 ∧ 'F'.toNat = 70 := by decide
  unfold hexValue? at h
  simp only [Bool.and_eq_true, decide_eq_true_eq, hle, hends] at h
  split at h
  · cases h
    omega
  · split at h
    · cases h
      omega
    · split at h
      · cases h
        omega
      · cases h

theorem mem_of_mapM {α β : Type} {f : α → Option β} {xs : List α} {ys : List β}
    (h : xs.mapM f = some ys) {y : β} (hy : y ∈ ys) : ∃ x ∈ xs, f x = some y := by
  induction xs generalizing ys with
  | nil =>
    cases h
    cases hy
  | cons x xs ih =>
    rw [List.mapM_cons] at h
    obtain ⟨z, hz, h⟩ := Option.bind_eq_some_iff.mp h
    obtain ⟨zs, hzs, h⟩ := Option.bind_eq_some_iff.mp h
    cases h
    rcases List.mem_cons.mp hy with rfl | hy
    · exact ⟨x, List.mem_cons_self, hz⟩
    · obtain ⟨x', hx', hfx'⟩ := ih hzs hy
      exact ⟨x', List.mem_cons_of_mem _ hx', hfx'⟩

theorem unit?_lt {cs : List Char} {n : Nat} (h : unit? cs = some n) : n < 0x10000 := by
  unfold unit? at h
  split at h
  · rename_i a b c d hvalues
    have hlt {x : Nat} (hx : x ∈ [a, b, c, d]) : x < 16 := by
      obtain ⟨digit, -, hdigit⟩ := mem_of_mapM hvalues hx
      exact hexValue?_lt hdigit
    have ha : a < 16 := hlt (by simp)
    have hb : b < 16 := hlt (by simp)
    have hc : c < 16 := hlt (by simp)
    have hd : d < 16 := hlt (by simp)
    cases h
    omega
  · cases h

def OpensTrailing (cs : List Char) : Prop :=
  ∃ next low, cs = '\\' :: 'u' :: next ∧ (next.drop 4).isEmpty = false ∧
    unit? (next.take 4) = some low ∧ isTrailing low = true

theorem joinSurrogates_bounds {high low : Nat} (hhigh : isLeading high = true)
    (hlow : isTrailing low = true) :
    0x10000 ≤ joinSurrogates high low ∧ joinSurrogates high low < 0x110000 := by
  rw [isLeading_iff] at hhigh
  rw [isTrailing_iff] at hlow
  unfold joinSurrogates
  omega

theorem not_opensTrailing {next : List Char}
    (h : ∀ low, (next.drop 4).isEmpty = false → unit? (next.take 4) = some low →
      isTrailing low = false) : ¬OpensTrailing ('\\' :: 'u' :: next) := by
  rintro ⟨next', low, hnext, hlong, hlow, htrailing⟩
  cases hnext
  rw [h low hlong hlow] at htrailing
  cases htrailing

/-- An escape is that of a pair, or of a unit by itself. A leading surrogate is left by itself just
where no trailing one follows. -/
theorem hexEscape_cases {d : Dialect} {cs rest : List Char} {n : Nat}
    (h : hexEscape d cs = .ok (n, rest)) :
    (cs.drop 4).isEmpty = false ∧ ∃ high, unit? (cs.take 4) = some high ∧
      ((∃ low, isLeading high = true ∧ isTrailing low = true ∧ joinSurrogates high low = n) ∨
        high = n ∧ cs.drop 4 = rest ∧
          (isLeading high = true → ¬OpensTrailing (cs.drop 4))) := by
  unfold hexEscape at h
  split at h
  · cases h
  rename_i hlong
  split at h
  · cases h
  rename_i high hunit
  refine ⟨Bool.eq_false_iff.mpr hlong, high, hunit, ?_⟩
  -- all ways but one leave the unit by itself
  have halone (hopens : isLeading high = true → ¬OpensTrailing (cs.drop 4))
      (h : (Except.ok (high, cs.drop 4) : Except Problem _) = .ok (n, rest)) :
      (∃ low, isLeading high = true ∧ isTrailing low = true ∧ joinSurrogates high low = n) ∨
        high = n ∧ cs.drop 4 = rest ∧ (isLeading high = true → ¬OpensTrailing (cs.drop 4)) :=
    have hpair := Prod.mk.inj (Except.ok.inj h)
    .inr ⟨hpair.1, hpair.2, hopens⟩
  simp only at h
  split at h
  · rename_i hleading
    split at h
    · rename_i next hnext
      rw [hnext] at halone h ⊢
      split at h
      · rename_i hshort
        split at h
        · refine halone (fun _ => not_opensTrailing fun low hlong _ => ?_) h
          rw [hshort] at hlong
          cases hlong
        · cases h
      · split at h
        · cases h
        rename_i low hlow
        split at h
        · rename_i htrailing
          exact .inl ⟨low, hleading, htrailing, (Prod.mk.inj (Except.ok.inj h)).1⟩
        · rename_i htrailing
          split at h
          · refine halone (fun _ => not_opensTrailing fun low' _ hlow' => ?_) h
            cases hlow.symm.trans hlow'
            exact Bool.eq_false_iff.mpr htrailing
          · cases h
    · rename_i next hother hnext
      split at h
      · refine halone (fun _ => ?_) h
        rintro ⟨next', low, hnext', -⟩
        rw [hnext] at hnext'
        cases hnext'
        exact hother _ rfl
      · cases h
    · rename_i hother _
      split at h
      · refine halone (fun _ => ?_) h
        rintro ⟨next, low, hnext, -⟩
        exact hother _ hnext
      · cases h
  · rename_i hleading
    split at h
    · cases h
    · exact halone (fun hhigh => absurd hhigh hleading) h

theorem hexEscape_ok {d : Dialect} {cs rest : List Char} {n : Nat}
    (h : hexEscape d cs = .ok (n, rest)) :
    n < 0x110000 ∧ (isLeading n = true → ¬OpensTrailing rest) ∧
      (isTrailing n = true → OpensTrailing ('\\' :: 'u' :: cs)) := by
  obtain ⟨hlong, high, hunit, ⟨low, hleading, htrailing, rfl⟩ | ⟨rfl, rfl, hopens⟩⟩ :=
    hexEscape_cases h
  · obtain ⟨hge, hlt⟩ := joinSurrogates_bounds hleading htrailing
    rw [isLeading_iff, isTrailing_iff]
    exact ⟨hlt, fun hn => absurd hn.2 (by omega), fun hn => absurd hn.2 (by omega)⟩
  · have hhigh := unit?_lt hunit
    exact ⟨by omega, hopens, fun htrailing => ⟨cs, high, rfl, hlong, hunit, htrailing⟩⟩

theorem isSurrogate_hexEscape {d : Dialect} (hd : d.loneSurrogates = false) {cs rest : List Char}
    {n : Nat} (h : hexEscape d cs = .ok (n, rest)) : isSurrogate n = false := by
  unfold hexEscape at h
  simp only [hd, Bool.not_false, Bool.and_true, Bool.false_eq_true, if_false] at h
  split at h
  · cases h
  split at h
  · cases h
  split at h
  · rename_i hleading
    split at h
    · split at h
      · cases h
      split at h
      · cases h
      split at h
      · rename_i htrailing
        obtain ⟨hge, -⟩ := joinSurrogates_bounds hleading htrailing
        rw [(Prod.mk.inj (Except.ok.inj h)).1] at hge
        rw [isSurrogate_eq_false_iff]
        omega
      · cases h
    · cases h
    · cases h
  · rename_i hleading
    split at h <;> cases h
    rename_i htrailing
    rw [Bool.eq_false_iff, ne_eq, isSurrogate_iff_or]
    exact not_or.mpr ⟨hleading, htrailing⟩

theorem escaped_ok {d : Dialect} {opened n : Nat} {cs rest : List Char}
    (h : escaped d opened cs = .ok (n, rest)) :
    n < 0x110000 ∧ (isLeading n = true → ¬ OpensTrailing rest) ∧
      (isTrailing n = true → OpensTrailing ('\\' :: cs)) := by
  unfold escaped at h
  split at h
  case h_2 => exact hexEscape_ok h
  all_goals cases h
  all_goals exact ⟨by decide, fun hn => absurd hn (by decide), fun hn => absurd hn (by decide)⟩

theorem isSurrogate_escaped {d : Dialect} (hd : d.loneSurrogates = false) {opened n : Nat}
    {cs rest : List Char} (h : escaped d opened cs = .ok (n, rest)) : isSurrogate n = false := by
  unfold escaped at h
  split at h
  case h_2 => exact isSurrogate_hexEscape hd h
  all_goals cases h
  all_goals rfl

theorem unpaired_cons {n : Nat} {ns : List Nat}
    (hn : ∀ m ∈ ns.head?, isLeading n = true → isTrailing m = false) (hns : Unpaired ns) :
    Unpaired (n :: ns) :=
  List.isChain_cons.mpr ⟨hn, hns⟩

/-- The first point of a string is a trailing surrogate just where the escape of one stands. -/
theorem stringPoints_ok {d : Dialect} {opened fuel : Nat} {cs rest : List Char} {ns : List Nat}
    (h : stringPoints d opened fuel cs = .ok (ns, rest)) :
    (∀ n ∈ ns, n < 0x110000) ∧ Unpaired ns ∧
      ∀ n ∈ ns.head?, isTrailing n = true → OpensTrailing cs := by
  induction fuel generalizing cs ns with
  | zero => cases h
  | succ fuel ih =>
    cases cs with
    | nil => cases h
    | cons c r =>
      rw [stringPoints] at h
      -- the closing quote, an escape, or a character as it is
      split at h
      · cases h
        exact ⟨by simp, List.IsChain.nil, by simp⟩
      · split at h
        · rename_i hescape
          obtain ⟨⟨n, r'⟩, hn, h⟩ := bind_ok.mp h
          obtain ⟨⟨ms, r''⟩, hms, h⟩ := bind_ok.mp h
          cases h
          obtain ⟨hlt, hleading, htrailing⟩ := escaped_ok hn
          obtain ⟨hall, hunpaired, hhead⟩ := ih hms
          refine ⟨List.forall_mem_cons.mpr ⟨hlt, hall⟩, unpaired_cons ?_ hunpaired, ?_⟩
          · -- a trailing surrogate next would have been joined to the leading one
            intro m hm hn
            exact Bool.eq_false_iff.mpr fun hm' => hleading hn (hhead m hm hm')
          · intro m hm hm'
            cases hm
            rw [hescape]
            exact htrailing hm'
        · split at h
          · cases h
          · obtain ⟨⟨ms, r'⟩, hms, h⟩ := bind_ok.mp h
            cases h
            obtain ⟨hlt, hplain⟩ := plain_toNat c
            obtain ⟨hleading, htrailing⟩ := unpaired_of_plain hplain
            obtain ⟨hall, hunpaired, -⟩ := ih hms
            refine ⟨List.forall_mem_cons.mpr ⟨hlt, hall⟩, unpaired_cons ?_ hunpaired, ?_⟩
            · intro m _ hc
              rw [hleading] at hc
              cases hc
            · intro m hm hm'
              cases hm
              rw [htrailing] at hm'
              cases hm'

theorem stringPoints_whole {d : Dialect} (hd : d.loneSurrogates = false) {opened fuel : Nat}
    {cs rest : List Char} {ns : List Nat} (h : stringPoints d opened fuel cs = .ok (ns, rest)) :
    ns.any isSurrogate = false := by
  induction fuel generalizing cs ns with
  | zero => cases h
  | succ fuel ih =>
    cases cs with
    | nil => cases h
    | cons c r =>
      rw [stringPoints] at h
      split at h
      · cases h
        rfl
      · split at h
        · obtain ⟨⟨n, r'⟩, hn, h⟩ := bind_ok.mp h
          obtain ⟨⟨ms, r''⟩, hms, h⟩ := bind_ok.mp h
          cases h
          rw [List.any_cons, isSurrogate_escaped hd hn, ih hms, Bool.or_self]
        · split at h
          · cases h
          · obtain ⟨⟨ms, r'⟩, hms, h⟩ := bind_ok.mp h
            cases h
            rw [List.any_cons, (plain_toNat c).2, ih hms, Bool.or_self]

theorem isText_of_string {d : Dialect} (hd : d.loneSurrogates = false) {cs rest : List Char}
    {points : List Nat} (h : string d cs = .ok (points, rest)) :
    (ofPoints points).isText = true := by
  rw [ofPoints, stringPoints_whole hd h]
  rfl

theorem isString_of_string {d : Dialect} {cs rest : List Char} {points : List Nat}
    (h : string d cs = .ok (points, rest)) : (ofPoints points).isString = true := by
  obtain ⟨hall, hunpaired, -⟩ := stringPoints_ok h
  unfold ofPoints
  split
  · rename_i hany
    simp only [Value.isString, Bool.and_eq_true, decide_eq_true_eq, List.all_eq_true]
    exact ⟨⟨hany, hall⟩, hunpaired⟩
  · rfl

theorem isDocument_of_isString {v : Value} (h : v.isString = true) : v.isDocument = true := by
  cases v with
  | text => rfl
  | broken => exact h
  | _ => cases h

theorem fits_of_isText {d : Dialect} {depth : Nat} (hdepth : d.allows depth = true) {v : Value}
    (h : v.isText = true) : v.fits d depth = true := by
  cases v with
  | text s => rw [Value.fits_text, hdepth]
  | _ => cases h

/-! ## Values -/

def isAtomic : Value → Bool
  | .none | .flag _ | .int _ | .real _ => true
  | _ => false

theorem isDocument_of_isAtomic {v : Value} (h : isAtomic v = true) : v.isDocument = true := by
  cases v <;> first | rfl | cases h

theorem fits_of_isAtomic {d : Dialect} {depth : Nat} {v : Value} (h : isAtomic v = true) :
    v.fits d depth = (d.allows depth && (d.overlong? v).isNone) := by
  cases v <;> first | rfl | cases h

theorem isAtomic_of_word? {cs rest : List Char} {v : Value} (h : word? cs = some (v, rest)) :
    isAtomic v = true := by
  have hwords : ∀ w ∈ words, isAtomic w.2 = true := by decide
  obtain ⟨w, hw, h⟩ := List.exists_of_findSome?_eq_some h
  rw [Option.ite_none_right_eq_some, Option.some.injEq] at h
  cases h.2
  exact hwords w hw

theorem isAtomic_of_number? {cs rest : List Char} {v : Value} (h : number? cs = some (v, rest)) :
    isAtomic v = true := by
  have hnumber {isWhole : Bool} {n : Int} {x : Binary64} {r : List Char}
      (h : (if isWhole then some (Value.int n, r) else some (Value.real x, r)) = some (v, rest)) :
      isAtomic v = true := by
    cases isWhole <;> cases h <;> rfl
  unfold number? at h
  exact hnumber (Option.ite_none_left_eq_some.mp h).2

/-- What the reader gives of a value, an array's elements and an object's members: what a document
holds, and what fits where no surrogate may stand alone. -/
structure Reads (d : Dialect) (fuel : Nat) : Prop where
  value : ∀ {depth : Nat} {cs rest : List Char} {v : Value},
    value d depth fuel cs = .ok (v, rest) →
      v.isDocument = true ∧ (d.loneSurrogates = false → v.fits d depth = true)
  elements : ∀ {depth : Nat} {cs rest : List Char} {vs : List Value},
    elements d depth fuel cs = .ok (vs, rest) →
      Value.areDocuments vs = true ∧ (d.loneSurrogates = false → Value.fitAll d depth vs = true)
  members : ∀ {depth : Nat} {sofar entries : Mapping} {cs rest : List Char},
    Value.haveDocuments sofar = true →
      (d.loneSurrogates = false → Value.fitEntries d depth sofar = true) →
        members d depth fuel sofar cs = .ok (entries, rest) →
          Value.haveDocuments entries = true ∧
            (d.loneSurrogates = false → Value.fitEntries d depth entries = true)

namespace Reads

variable {d : Dialect} {depth fuel : Nat} {cs rest : List Char}

theorem succ_value (h : Reads d fuel) {v : Value}
    (hv : Json.value d depth (fuel + 1) cs = .ok (v, rest)) :
    v.isDocument = true ∧ (d.loneSurrogates = false → v.fits d depth = true) := by
  rw [value.eq_def] at hv
  simp only at hv
  split at hv
  · cases hv
  rename_i hdepth
  have hallows : d.allows depth = true := by simpa [Dialect.allows] using hdepth
  -- a string, an array, an object, or a word or number
  split at hv
  · obtain ⟨⟨points, r⟩, hpoints, hv⟩ := bind_ok.mp hv
    cases hv
    refine ⟨isDocument_of_isString (isString_of_string hpoints), fun hd => ?_⟩
    exact fits_of_isText hallows (isText_of_string hd hpoints)
  · split at hv
    · cases hv
      exact ⟨rfl, fun _ => by rw [Value.fits, hallows]; rfl⟩
    · obtain ⟨⟨vs, r⟩, hvs, hv⟩ := bind_ok.mp hv
      cases hv
      obtain ⟨hdocuments, hfit⟩ := h.elements hvs
      exact ⟨hdocuments, fun hd => by rw [Value.fits, hallows, hfit hd]; rfl⟩
  · split at hv
    · cases hv
      exact ⟨rfl, fun _ => by rw [Value.fits, hallows]; rfl⟩
    · obtain ⟨⟨es, r⟩, hes, hv⟩ := bind_ok.mp hv
      cases hv
      obtain ⟨hdocuments, hfit⟩ := h.members rfl (fun _ => rfl) hes
      exact ⟨hdocuments, fun hd => by rw [Value.fits, hallows, hfit hd]; rfl⟩
  · split at hv
    · rename_i hatom
      split at hv
      · rename_i hlong
        cases hv
        have hatomic : isAtomic v = true := by
          rcases Option.or_eq_some_iff.mp hatom with hword | ⟨-, hnumber⟩
          · exact isAtomic_of_word? hword
          · exact isAtomic_of_number? hnumber
        refine ⟨isDocument_of_isAtomic hatomic, fun _ => ?_⟩
        rw [fits_of_isAtomic hatomic, hallows, hlong]
        rfl
      · cases hv
    · cases hv

theorem succ_elements (h : Reads d fuel) {vs : List Value}
    (hvs : Json.elements d depth (fuel + 1) cs = .ok (vs, rest)) :
    Value.areDocuments vs = true ∧
      (d.loneSurrogates = false → Value.fitAll d depth vs = true) := by
  rw [elements.eq_def] at hvs
  obtain ⟨⟨v, r⟩, hv, hvs⟩ := bind_ok.mp hvs
  obtain ⟨hdocument, hfit⟩ := h.value hv
  simp only at hvs
  split at hvs
  · cases hvs
    exact ⟨by simp [Value.areDocuments, hdocument], fun hd => by simp [Value.fitAll, hfit hd]⟩
  · obtain ⟨⟨ws, r'⟩, hws, hvs⟩ := bind_ok.mp hvs
    cases hvs
    obtain ⟨hdocuments, hfits⟩ := h.elements hws
    exact ⟨by simp [Value.areDocuments, hdocument, hdocuments],
      fun hd => by simp [Value.fitAll, hfit hd, hfits hd]⟩
  · cases hvs

theorem succ_members (h : Reads d fuel) {sofar entries : Mapping}
    (hsofar : Value.haveDocuments sofar = true)
    (hfit : d.loneSurrogates = false → Value.fitEntries d depth sofar = true)
    (hes : Json.members d depth (fuel + 1) sofar cs = .ok (entries, rest)) :
    Value.haveDocuments entries = true ∧
      (d.loneSurrogates = false → Value.fitEntries d depth entries = true) := by
  rw [members.eq_def] at hes
  simp only at hes
  split at hes
  · obtain ⟨⟨points, r⟩, hpoints, hes⟩ := bind_ok.mp hes
    simp only at hes
    split at hes
    · obtain ⟨⟨v, r'⟩, hv, hes⟩ := bind_ok.mp hes
      obtain ⟨hdocument, hvalue⟩ := h.value hv
      have hput := Value.haveDocuments_put hsofar (isString_of_string hpoints) hdocument
      have hputFit (hd : d.loneSurrogates = false) :=
        Value.fitEntries_put (hfit hd) (isText_of_string hd hpoints) (hvalue hd)
      simp only at hes
      split at hes
      · cases hes
        exact ⟨hput, hputFit⟩
      · exact h.members hput hputFit hes
      · cases hes
    · cases hes
  · cases hes

end Reads

theorem reads (d : Dialect) (fuel : Nat) : Reads d fuel := by
  induction fuel with
  | zero =>
    refine ⟨fun h => ?_, fun h => ?_, fun _ _ h => ?_⟩
    · rw [value.eq_def] at h
      cases h
    · rw [elements.eq_def] at h
      cases h
    · rw [members.eq_def] at h
      cases h
  | succ fuel ih => exact ⟨ih.succ_value, ih.succ_elements, ih.succ_members⟩

theorem exists_value_of_read {d : Dialect} {cs : List Char} {v : Value} (h : read d cs = .ok v) :
    ∃ fuel cs' rest, value d 0 fuel cs' = .ok (v, rest) := by
  unfold read at h
  split at h
  · cases h
  · split at h
    · cases h
    · rename_i w rest hw
      split at h <;> cases h
      exact ⟨_, _, rest, hw⟩

/-- Everything that is read is a document value. -/
theorem isDocument_of_read {d : Dialect} {cs : List Char} {v : Value} (h : read d cs = .ok v) :
    v.isDocument = true := by
  obtain ⟨fuel, cs', rest, hv⟩ := exists_value_of_read h
  exact ((reads d fuel).value hv).1

theorem fits_of_read {cs : List Char} {v : Value} (h : read .record cs = .ok v) :
    v.fits .record 0 = true := by
  obtain ⟨fuel, cs', rest, hv⟩ := exists_value_of_read h
  exact ((reads .record fuel).value hv).2 rfl

end Detection.Json
