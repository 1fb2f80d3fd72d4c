import Mathlib.Data.List.Chain
import Detection.Json.Reader
import Detection.Json.Writer
import Detection.Proofs.Success

/-! # Strings read back as they are written

Every code point is written as a piece of its own. Code points that are no surrogates read back one
by one; a surrogate that stands alone is refused where records are read.
-/

namespace Detection.Json

/-! ## Surrogates -/

section

variable {n : Nat}

theorem isLeading_iff : isLeading n = true ↔ 0xD800 ≤ n ∧ n < 0xDC00 := by simp [isLeading]

theorem isTrailing_iff : isTrailing n = true ↔ 0xDC00 ≤ n ∧ n < 0xE000 := by simp [isTrailing]

theorem isSurrogate_iff : isSurrogate n = true ↔ 0xD800 ≤ n ∧ n < 0xE000 := by
  simp [isSurrogate]

theorem isSurrogate_iff_or :
    isSurrogate n = true ↔ isLeading n = true ∨ isTrailing n = true := by
  rw [isSurrogate_iff, isLeading_iff, isTrailing_iff]
  omega

theorem isSurrogate_eq_false_iff : isSurrogate n = false ↔ n < 0xD800 ∨ 0xE000 ≤ n := by
  rw [Bool.eq_false_iff, ne_eq, isSurrogate_iff]
  omega

theorem unpaired_of_plain (h : isSurrogate n = false) :
    isLeading n = false ∧ isTrailing n = false := by
  rw [isSurrogate_eq_false_iff] at h
  rw [Bool.eq_false_iff, Bool.eq_false_iff, ne_eq, ne_eq, isLeading_iff, isTrailing_iff]
  omega

theorem plain_toNat (c : Char) : c.toNat < 0x110000 ∧ isSurrogate c.toNat = false := by
  have hvalid : c.toNat.isValidChar := c.valid
  unfold Nat.isValidChar at hvalid
  rw [isSurrogate_eq_false_iff]
  omega

end

/-! ## Four hexadecimal digits -/

theorem hexDigits_four {n : Nat} (h : n < 0x10000) :
    Text.hexDigits 4 n = [Nat.digitChar (n / 0x1000), Nat.digitChar (n / 0x100 % 16),
      Nat.digitChar (n / 16 % 16), Nat.digitChar (n % 16)] := by
  unfold Text.hexDigits
  by_cases h1 : n < 16
  · rw [Nat.toDigits_of_lt_base h1, show n / 0x1000 = 0 by omega, show n / 0x100 % 16 = 0 by omega,
      show n / 16 % 16 = 0 by omega, Nat.mod_eq_of_lt h1]
    rfl
  rw [Nat.toDigits_of_base_le (by decide) (by omega)]
  by_cases h2 : n / 16 < 16
  · rw [Nat.toDigits_of_lt_base h2, show n / 0x1000 = 0 by omega, show n / 0x100 % 16 = 0 by omega,
      Nat.mod_eq_of_lt h2]
    rfl
  rw [Nat.toDigits_of_base_le (by decide) (by omega)]
  by_cases h3 : n / 16 / 16 < 16
  · rw [Nat.toDigits_of_lt_base h3, show n / 0x1000 = 0 by omega, Nat.div_div_eq_div_mul,
      Nat.mod_eq_of_lt (by omega : n / 0x100 < 16)]
    rfl
  rw [Nat.toDigits_of_base_le (by decide) (by omega),
    Nat.toDigits_of_lt_base (by omega : n / 16 / 16 / 16 < 16)]
  simp only [Nat.div_div_eq_div_mul]
  rfl

theorem length_hexDigits {n : Nat} (h : n < 0x10000) : (Text.hexDigits 4 n).length = 4 := by
  rw [hexDigits_four h]
  rfl

theorem hexValue?_digitChar : ∀ d < 16, hexValue? (Nat.digitChar d) = some d := by decide

theorem unit?_hexDigits {n : Nat} (h : n < 0x10000) : unit? (Text.hexDigits 4 n) = some n := by
  rw [hexDigits_four h]
  simp only [unit?, List.mapM_cons, List.mapM_nil, hexValue?_digitChar (n / 0x1000) (by omega),
    hexValue?_digitChar (n / 0x100 % 16) (by omega), hexValue?_digitChar (n / 16 % 16) (by omega),
    hexValue?_digitChar (n % 16) (by omega), Option.pure_def, Option.bind_eq_bind,
    Option.bind_some, Option.some.injEq]
  omega

/-! ## Escapes in hexadecimal -/

section

variable (d : Dialect) {n high low : Nat} {rest : List Char}

theorem take_hexDigits (h : n < 0x10000) (cs : List Char) :
    (Text.hexDigits 4 n ++ cs).take 4 = Text.hexDigits 4 n ∧
      (Text.hexDigits 4 n ++ cs).drop 4 = cs :=
  ⟨List.take_left' (length_hexDigits h), List.drop_left' (length_hexDigits h)⟩

theorem hexEscape_unit (h : n < 0x10000) (hplain : isSurrogate n = false) (hrest : rest ≠ []) :
    hexEscape d (Text.hexDigits 4 n ++ rest) = .ok (n, rest) := by
  obtain ⟨htake, hdrop⟩ := take_hexDigits h rest
  obtain ⟨hleading, htrailing⟩ := unpaired_of_plain hplain
  simp [hexEscape, htake, hdrop, hrest, unit?_hexDigits h, hleading, htrailing]

theorem hexEscape_pair (hhigh : isLeading high = true) (hlow : isTrailing low = true)
    (hrest : rest ≠ []) :
    hexEscape d (Text.hexDigits 4 high ++ (unitEscape low ++ rest)) =
      .ok (joinSurrogates high low, rest) := by
  have hhigh' := isLeading_iff.mp hhigh
  have hlow' := isTrailing_iff.mp hlow
  obtain ⟨htake, hdrop⟩ := take_hexDigits (by omega : high < 0x10000) (unitEscape low ++ rest)
  obtain ⟨htake', hdrop'⟩ := take_hexDigits (by omega : low < 0x10000) rest
  have hunit := unit?_hexDigits (by omega : high < 0x10000)
  have hunit' := unit?_hexDigits (by omega : low < 0x10000)
  rw [unitEscape, List.cons_append, List.cons_append] at htake hdrop ⊢
  simp [hexEscape, htake, hdrop, htake', hdrop', hrest, hunit, hunit', hhigh, hlow]

theorem hexEscape_alone (hd : d.loneSurrogates = false) (h : isLeading n = true)
    (hrest : ∀ cs low, rest = '\\' :: 'u' :: cs → unit? (cs.take 4) = some low →
      isTrailing low = false) :
    ∃ p, hexEscape d (Text.hexDigits 4 n ++ rest) = .error p := by
  have hn := isLeading_iff.mp h
  obtain ⟨htake, hdrop⟩ := take_hexDigits (by omega : n < 0x10000) rest
  have hunit := unit?_hexDigits (by omega : n < 0x10000)
  simp only [hexEscape, htake, hdrop, hunit, h, hd, if_true]
  split
  · exact ⟨_, rfl⟩
  split
  · rename_i next _
    split
    · exact ⟨_, rfl⟩
    split
    · exact ⟨_, rfl⟩
    · rename_i low hlow
      rw [hrest next low rfl hlow]
      exact ⟨_, rfl⟩
  · exact ⟨_, rfl⟩
  · exact ⟨_, rfl⟩

theorem hexEscape_trailing (hd : d.loneSurrogates = false) (h : isTrailing n = true) :
    ∃ p, hexEscape d (Text.hexDigits 4 n ++ rest) = .error p := by
  have hn := isTrailing_iff.mp h
  have hleading : isLeading n = false := by
    rw [Bool.eq_false_iff, ne_eq, isLeading_iff]
    omega
  obtain ⟨htake, hdrop⟩ := take_hexDigits (by omega : n < 0x10000) rest
  have hunit := unit?_hexDigits (by omega : n < 0x10000)
  simp only [hexEscape, htake, hdrop, hunit, h, hd, hleading]
  split
  · exact ⟨_, rfl⟩
  · exact ⟨_, rfl⟩

end

/-! ## One code point -/

theorem escape_cases (n : Nat) :
    (∃ c ≠ 'u', escape n = ['\\', c] ∧ ∀ d opened r, escaped d opened (c :: r) = .ok (n, r)) ∨
      (escape n = [Char.ofNat n] ∧ 0x20 ≤ n ∧ n < 0x7F ∧ n ≠ 0x22 ∧ n ≠ 0x5C) ∨
      escape n = pointEscape n := by
  unfold escape
  split
  · exact .inl ⟨'"', by decide, rfl, by subst n; exact fun _ _ _ => rfl⟩
  split
  · exact .inl ⟨'\\', by decide, rfl, by subst n; exact fun _ _ _ => rfl⟩
  split
  · exact .inl ⟨'n', by decide, rfl, by subst n; exact fun _ _ _ => rfl⟩
  split
  · exact .inl ⟨'r', by decide, rfl, by subst n; exact fun _ _ _ => rfl⟩
  split
  · exact .inl ⟨'t', by decide, rfl, by subst n; exact fun _ _ _ => rfl⟩
  split
  · exact .inl ⟨'b', by decide, rfl, by subst n; exact fun _ _ _ => rfl⟩
  split
  · exact .inl ⟨'f', by decide, rfl, by subst n; exact fun _ _ _ => rfl⟩
  split
  · rename_i hprintable
    simp only [Bool.and_eq_true, decide_eq_true_eq] at hprintable
    exact .inr (.inl ⟨rfl, hprintable.1, hprintable.2, by assumption, by assumption⟩)
  · exact .inr (.inr rfl)

theorem toNat_ofNat {n : Nat} (hn : n < 0x110000) (hplain : isSurrogate n = false) :
    (Char.ofNat n).toNat = n := by
  rw [isSurrogate_eq_false_iff] at hplain
  have hvalid : n.isValidChar := by
    unfold Nat.isValidChar
    omega
  rw [Char.ofNat, dif_pos hvalid]
  rfl

theorem stringPoints_escaped (d : Dialect) (opened fuel : Nat) {n : Nat} {cs rest : List Char}
    (h : escaped d opened cs = .ok (n, rest)) :
    stringPoints d opened (fuel + 1) ('\\' :: cs) =
      (fun r => (n :: r.1, r.2)) <$> stringPoints d opened fuel rest := by
  rw [stringPoints, if_neg (by decide), if_pos rfl, h]
  change (stringPoints d opened fuel rest >>= _) = _
  cases stringPoints d opened fuel rest <;> rfl

theorem pointEscape_pair {n : Nat} (h : ¬n < 0x10000) (hn : n < 0x110000) :
    ∃ high low, pointEscape n = unitEscape high ++ unitEscape low ∧ isLeading high = true ∧
      isTrailing low = true ∧ joinSurrogates high low = n := by
  obtain ⟨m, rfl⟩ := Nat.exists_eq_add_of_le (Nat.not_lt.mp h)
  refine ⟨0xD800 + m / 0x400, 0xDC00 + m % 0x400, ?_, ?_, ?_, ?_⟩
  · rw [pointEscape, if_neg h, Nat.add_sub_cancel_left]
  · rw [isLeading_iff]
    omega
  · rw [isTrailing_iff]
    omega
  · unfold joinSurrogates
    omega

def ReadsAs (d : Dialect) (piece : List Char) (n : Nat) : Prop :=
  ∀ (opened fuel : Nat) {rest : List Char}, rest ≠ [] →
    stringPoints d opened (fuel + 1) (piece ++ rest) =
      (fun r => (n :: r.1, r.2)) <$> stringPoints d opened fuel rest

theorem ReadsAs.ne_nil {d : Dialect} {piece : List Char} {n : Nat} (h : ReadsAs d piece n) :
    piece ≠ [] := by
  rintro rfl
  have hclosed : Except.ok ([], []) = (Except.ok ([n], []) : Except Problem _) :=
    h 0 1 (List.cons_ne_nil '"' [])
  cases hclosed

theorem readsAs_self (d : Dialect) {c : Char} (hquote : c ≠ '"') (hslash : c ≠ '\\')
    (hvisible : 0x20 ≤ c.toNat) : ReadsAs d [c] c.toNat := by
  intro opened fuel rest _
  rw [List.singleton_append, stringPoints, if_neg hquote, if_neg hslash,
    if_neg (Nat.not_lt.mpr hvisible)]
  cases stringPoints d opened fuel rest <;> rfl

theorem readsAs_unitEscape (d : Dialect) {n : Nat} (hn : n < 0x10000)
    (hplain : isSurrogate n = false) : ReadsAs d (unitEscape n) n :=
  fun opened fuel _ hrest =>
    stringPoints_escaped d opened fuel (hexEscape_unit d hn hplain hrest)

theorem readsAs_escape (d : Dialect) {n : Nat} (hn : n < 0x110000)
    (hplain : isSurrogate n = false) : ReadsAs d (escape n) n := by
  rcases escape_cases n with
    ⟨c, -, hescape, hread⟩ | ⟨hescape, hlow, hhigh, hquote, hslash⟩ | hescape
  · rw [hescape]
    exact fun opened fuel rest _ => stringPoints_escaped d opened fuel (hread d opened rest)
  · have hchar := toNat_ofNat hn hplain
    have hne {c : Char} (hc : n ≠ c.toNat) : Char.ofNat n ≠ c := by
      rintro rfl
      exact hc hchar.symm
    have hself := readsAs_self d (hne (c := '"') hquote) (hne (c := '\\') hslash)
      (by rwa [hchar])
    rw [hchar] at hself
    rw [hescape]
    exact hself
  · rw [hescape]
    by_cases hunit : n < 0x10000
    · rw [pointEscape, if_pos hunit]
      exact readsAs_unitEscape d hunit hplain
    · obtain ⟨high, low, hpair, hhigh, hlow, hjoin⟩ := pointEscape_pair hunit hn
      intro opened fuel rest hrest
      rw [hpair, List.append_assoc]
      refine stringPoints_escaped d opened fuel ?_
      rw [← hjoin]
      exact hexEscape_pair d hhigh hlow hrest

/-! ## Whole strings -/

section

variable {α : Type} {d : Dialect} {esc : α → List Char} {code : α → Nat} {xs : List α}

theorem stringPoints_flatMap (h : ∀ x ∈ xs, ReadsAs d (esc x) (code x)) (opened : Nat) {fuel : Nat}
    (hfuel : xs.length < fuel) (rest : List Char) :
    stringPoints d opened fuel (xs.flatMap esc ++ '"' :: rest) = .ok (xs.map code, rest) := by
  induction xs generalizing fuel with
  | nil =>
    obtain ⟨fuel, rfl⟩ := Nat.exists_eq_add_one.mpr hfuel
    rfl
  | cons x xs ih =>
    obtain ⟨fuel, rfl⟩ := Nat.exists_eq_add_one.mpr (Nat.zero_lt_of_lt hfuel)
    obtain ⟨hx, hxs⟩ := List.forall_mem_cons.mp h
    rw [List.flatMap_cons, List.append_assoc, hx opened fuel (by simp),
      ih hxs (Nat.lt_of_succ_lt_succ hfuel)]
    rfl

theorem length_le_flatMap (h : ∀ x ∈ xs, ReadsAs d (esc x) (code x)) :
    xs.length ≤ (xs.flatMap esc).length := by
  induction xs with
  | nil => exact Nat.le_refl 0
  | cons x xs ih =>
    obtain ⟨hx, hxs⟩ := List.forall_mem_cons.mp h
    have hpos := List.length_pos_of_ne_nil hx.ne_nil
    have hle := ih hxs
    rw [List.flatMap_cons, List.length_append, List.length_cons]
    omega

theorem string_flatMap (h : ∀ x ∈ xs, ReadsAs d (esc x) (code x)) (rest : List Char) :
    string d (xs.flatMap esc ++ '"' :: rest) = .ok (xs.map code, rest) := by
  apply stringPoints_flatMap h
  have hle := length_le_flatMap h
  simp only [List.length_append, List.length_cons]
  omega

end

def Plain (points : List Nat) : Prop := ∀ n ∈ points, n < 0x110000 ∧ isSurrogate n = false

theorem string_plain (d : Dialect) {points : List Nat} (h : Plain points) (rest : List Char) :
    string d (points.flatMap escape ++ '"' :: rest) = .ok (points, rest) := by
  have hreads : ∀ n ∈ points, ReadsAs d (escape n) (id n) := fun n hn =>
    readsAs_escape d (h n hn).1 (h n hn).2
  have hread := string_flatMap hreads rest
  rwa [List.map_id] at hread

/-! ## Surrogates -/

/-- No surrogate is paired up with the one behind it. -/
def Unpaired (points : List Nat) : Prop :=
  points.IsChain fun a b => isLeading a = true → isTrailing b = false

instance (points : List Nat) : Decidable (Unpaired points) :=
  inferInstanceAs (Decidable (List.IsChain _ points))

theorem unit?_unitEscape {n : Nat} (hn : n < 0x10000) {cs rest : List Char}
    (h : unitEscape n ++ rest = '\\' :: 'u' :: cs) : unit? (cs.take 4) = some n := by
  have hcs : Text.hexDigits 4 n ++ rest = cs := (List.cons_eq_cons.mp (List.cons_eq_cons.mp h).2).2
  rw [← hcs, (take_hexDigits hn rest).1, unit?_hexDigits hn]

/-- An escape in hexadecimal is that of a trailing surrogate only if one is written. -/
theorem isTrailing_of_escape {n low : Nat} (hn : n < 0x110000) {cs rest : List Char}
    (h : escape n ++ rest = '\\' :: 'u' :: cs) (hlow : unit? (cs.take 4) = some low)
    (htrailing : isTrailing low = true) : isTrailing n = true := by
  rcases escape_cases n with ⟨c, hc, hescape, -⟩ | ⟨hescape, hge, hlt, -, hslash⟩ | hescape
  · rw [hescape] at h
    cases h
    exact absurd rfl hc
  · have hplain : isSurrogate n = false := by
      rw [isSurrogate_eq_false_iff]
      omega
    have hvalue := toNat_ofNat hn hplain
    rw [hescape] at h
    rw [(List.cons_eq_cons.mp h).1] at hvalue
    exact absurd hvalue.symm hslash
  · rw [hescape] at h
    by_cases hunit : n < 0x10000
    · rw [pointEscape, if_pos hunit] at h
      rw [unit?_unitEscape hunit h] at hlow
      cases hlow
      exact htrailing
    · obtain ⟨high, low', hpair, hhigh, -, -⟩ := pointEscape_pair hunit hn
      rw [isLeading_iff] at hhigh
      rw [isTrailing_iff] at htrailing
      rw [hpair, List.append_assoc] at h
      rw [unit?_unitEscape (by omega) h] at hlow
      cases hlow
      omega

theorem escape_surrogate {n : Nat} (h : isSurrogate n = true) : escape n = unitEscape n := by
  rw [isSurrogate_iff] at h
  have hprintable : ¬((0x20 ≤ n && n < 0x7F) = true) := by
    simp only [Bool.and_eq_true, decide_eq_true_eq]
    omega
  rw [escape, if_neg (by omega), if_neg (by omega), if_neg (by omega), if_neg (by omega),
    if_neg (by omega), if_neg (by omega), if_neg (by omega), if_neg hprintable, pointEscape,
    if_pos (by omega)]

theorem stringPoints_refused (d : Dialect) (opened fuel : Nat) {cs : List Char} {p : Problem}
    (h : escaped d opened cs = .error p) :
    stringPoints d opened (fuel + 1) ('\\' :: cs) = .error p := by
  rw [stringPoints, if_neg (by decide), if_pos rfl, h]
  rfl

theorem stringPoints_alone {d : Dialect} (hd : d.loneSurrogates = false) (opened : Nat)
    {points : List Nat} (hpoints : ∀ n ∈ points, n < 0x110000) (hunpaired : Unpaired points)
    (h : ∃ n ∈ points, isSurrogate n = true) (fuel : Nat) (rest : List Char) :
    ∃ p, stringPoints d opened fuel (points.flatMap escape ++ '"' :: rest) = .error p := by
  induction points generalizing fuel with
  | nil => simp at h
  | cons n points ih =>
    obtain ⟨hn, hpoints⟩ := List.forall_mem_cons.mp hpoints
    cases fuel with
    | zero => exact ⟨_, rfl⟩
    | succ fuel =>
    rw [List.flatMap_cons, List.append_assoc]
    -- points in front of the first surrogate are read, and the reader stops at its escape
    by_cases hplain : isSurrogate n = false
    · have hrest : ∃ m ∈ points, isSurrogate m = true := by
        simpa [hplain] using h
      obtain ⟨p, hp⟩ := ih hpoints hunpaired.of_cons hrest fuel
      rw [readsAs_escape d hn hplain opened fuel (by simp), hp]
      exact ⟨_, rfl⟩
    · rw [Bool.not_eq_false] at hplain
      rw [escape_surrogate hplain]
      have hrefused : ∃ p, hexEscape d (Text.hexDigits 4 n ++
          (points.flatMap escape ++ '"' :: rest)) = .error p := by
        by_cases htrailing : isTrailing n = true
        · exact hexEscape_trailing d hd htrailing
        · have hleading := (isSurrogate_iff_or.mp hplain).resolve_right htrailing
          refine hexEscape_alone d hd hleading fun cs low hcs hlow => ?_
          cases points with
          | nil => cases hcs
          | cons m points =>
            rw [List.flatMap_cons, List.append_assoc] at hcs
            have hnext := (List.isChain_cons_cons.mp hunpaired).1 hleading
            rw [Bool.eq_false_iff]
            intro htrailing
            rw [isTrailing_of_escape (hpoints m List.mem_cons_self) hcs hlow htrailing] at hnext
            cases hnext
      obtain ⟨p, hp⟩ := hrefused
      exact ⟨p, stringPoints_refused d opened fuel hp⟩

theorem string_alone {d : Dialect} (hd : d.loneSurrogates = false) {points : List Nat}
    (hpoints : ∀ n ∈ points, n < 0x110000) (hunpaired : Unpaired points)
    (h : ∃ n ∈ points, isSurrogate n = true) (rest : List Char) :
    ∃ p, string d (points.flatMap escape ++ '"' :: rest) = .error p :=
  stringPoints_alone hd _ hpoints hunpaired h _ rest

/-! ## Texts -/

theorem plain_text (s : String) : Plain (s.toList.map Char.toNat) := by
  intro n hn
  obtain ⟨c, -, rfl⟩ := List.mem_map.mp hn
  exact plain_toNat c

theorem ofPoints_text (s : String) : ofPoints (s.toList.map Char.toNat) = .text s := by
  have hplain : (s.toList.map Char.toNat).any isSurrogate = false := by
    rw [List.any_eq_false]
    intro n hn
    rw [(plain_text s n hn).2]
    exact Bool.false_ne_true
  have hchars : (s.toList.map Char.toNat).map Char.ofNat = s.toList := by
    simp [Function.comp_def]
  rw [ofPoints, hplain, hchars, String.ofList_toList]
  rfl

end Detection.Json
