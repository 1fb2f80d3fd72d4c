import Detection.Builder
import Detection.Proofs.Excess
import Detection.Proofs.Text.Quoted
import Detection.Proofs.Text.Split
import Detection.Proofs.Text.Utf8

/-! # Country codes read back

A code is two bytes of text, whatever it was read from. So a list of codes can be read from its text
though the codes in it may hold commas and brackets: a code without quotes ends after two bytes, a
quoted one at its last quote.
-/

namespace Detection.Country

/-! ## Codes of two bytes -/

theorem read_ok_iff {raw : Value} {s : String} :
    read raw = .ok s ↔ (raw = .bytes (Utf8.encode s) ∨ raw = .buffer (Utf8.encode s)) ∧
      (Utf8.encode s).length = 2 := by
  constructor
  · intro h
    unfold read at h
    split at h
    case h_3 => cases h
    all_goals
      split at h
      · rename_i bs hlength
        split at h
        · rename_i code hcode
          cases h
          obtain rfl := Utf8.encode_of_decode hcode
          simp [hlength]
        · cases h
      · cases h
  · rintro ⟨rfl | rfl, hlength⟩
    all_goals simp only [read, hlength, if_true, Utf8.decode_encode]

theorem decode_cases (raw : Value) :
    read raw = .ok (decode raw) ∨ (∀ s, read raw ≠ .ok s) ∧ decode raw = unknown := by
  unfold decode
  rcases read raw with cause | code
  · simp
  · exact .inl rfl

theorem decode_eq_of_read {raw : Value} {s : String} (h : read raw = .ok s) : decode raw = s := by
  rw [decode, h]

theorem length_encode_decode (raw : Value) : (Utf8.encode (decode raw)).length = 2 := by
  rcases decode_cases raw with hread | ⟨-, hunknown⟩
  · exact (read_ok_iff.mp hread).2
  · rw [hunknown]
    rfl

theorem length_of_mem_decodeAll (raws : List Value) :
    ∀ c ∈ decodeAll raws, (Utf8.encode c).length = 2 :=
  List.forall_mem_map.mpr fun raw _ => length_encode_decode raw

/-! ## Codes and their bytes -/

/-- The value is these two bytes, and they are text. -/
def IsCode (raw : Value) (bs : List UInt8) : Prop :=
  (raw = .bytes bs ∨ raw = .buffer bs) ∧ bs.length = 2 ∧ ∃ s, Utf8.encode s = bs

theorem isCode_iff {raw : Value} {bs : List UInt8} :
    IsCode raw bs ↔ ∃ s, read raw = .ok s ∧ Utf8.encode s = bs := by
  simp only [read_ok_iff, IsCode]
  constructor
  · rintro ⟨hraw, hlength, s, rfl⟩
    exact ⟨s, ⟨hraw, hlength⟩, rfl⟩
  · rintro ⟨s, ⟨hraw, hlength⟩, rfl⟩
    exact ⟨hraw, hlength, s, rfl⟩

theorem encode_decode (raw : Value) : encode (.text (decode raw)) = Utf8.encode (decode raw) :=
  if_pos (length_encode_decode raw)

theorem encode_decode_of_isCode {raw : Value} {bs : List UInt8} (h : IsCode raw bs) :
    encode (.text (decode raw)) = bs := by
  obtain ⟨s, hread, rfl⟩ := isCode_iff.mp h
  rw [encode_decode, decode_eq_of_read hread]

theorem encode_decode_of_not {raw : Value} (h : ∀ bs, ¬ IsCode raw bs) :
    encode (.text (decode raw)) = Utf8.encode unknown := by
  rcases decode_cases raw with hread | ⟨-, hunknown⟩
  · exact absurd (isCode_iff.mpr ⟨_, hread, rfl⟩) (h _)
  · rw [encode_decode, hunknown]

theorem decode_utf8 (s : String) :
    decode (.bytes (Utf8.encode s)) = if (Utf8.encode s).length = 2 then s else unknown := by
  split
  · rename_i hlength
    exact decode_eq_of_read (read_ok_iff.mpr ⟨.inl rfl, hlength⟩)
  · rename_i hlength
    rcases decode_cases (.bytes (Utf8.encode s)) with hread | ⟨-, hunknown⟩
    · obtain ⟨heq | heq, htwo⟩ := read_ok_iff.mp hread
      · rw [Value.bytes.injEq] at heq
        exact absurd (heq ▸ htwo) hlength
      · cases heq
    · exact hunknown

theorem encode_text (s : String) : encode (.text s) =
    if (Utf8.encode s).length = 2 then Utf8.encode s else Utf8.encode unknown := rfl

theorem decode_encode (s : String) :
    decode (.bytes (encode (.text s))) = decode (.bytes (Utf8.encode s)) := by
  rw [encode_text]
  split
  · rfl
  · rename_i hlength
    rw [decode_utf8, decode_utf8, if_neg hlength]
    rfl

theorem isCode_encode (code : Value) : IsCode (.bytes (encode code)) (encode code) := by
  have hunknown : IsCode (.bytes (Utf8.encode unknown)) (Utf8.encode unknown) :=
    ⟨.inl rfl, rfl, unknown, rfl⟩
  unfold encode
  split
  · rename_i s
    dsimp only
    split
    · rename_i hlength
      exact ⟨.inl rfl, hlength, s, rfl⟩
    · exact hunknown
  · exact hunknown

/-! ## The text of a list of codes -/

theorem length_flatMap_encode_eq_zero {cs : List Char}
    (h : (cs.flatMap String.utf8EncodeChar).length = 0) : cs = [] := by
  cases cs with
  | nil => rfl
  | cons c cs =>
    rw [List.flatMap_cons, List.length_append, String.length_utf8EncodeChar] at h
    have := c.utf8Size_pos
    omega

theorem append_inj_of_bytes {cs ds rest rest' : List Char} (h : cs ++ rest = ds ++ rest')
    (hbytes : (cs.flatMap String.utf8EncodeChar).length =
      (ds.flatMap String.utf8EncodeChar).length) : cs = ds ∧ rest = rest' := by
  rcases List.append_eq_append_iff.mp h with ⟨xs, rfl, rfl⟩ | ⟨xs, rfl, rfl⟩
  all_goals
    rw [List.flatMap_append, List.length_append] at hbytes
    have hxs : xs = [] := length_flatMap_encode_eq_zero (by omega)
    rw [hxs, List.append_nil]
    exact ⟨rfl, rfl⟩

theorem bare_ne_nil (s : String) : (Text.bare s).toList ≠ [] := by
  rcases Text.bare_cases s with hquote | ⟨hself, hne, -⟩
  · rw [hquote, Text.toList_quote]
    exact List.cons_ne_nil _ _
  · rw [hself]
    exact fun hnil => hne (String.toList_injective hnil)

theorem bare_append_inj {c d : String} (hc : (Utf8.encode c).length = 2)
    (hd : (Utf8.encode d).length = 2) {rest rest' : List Char}
    (h : (Text.bare c).toList ++ rest = (Text.bare d).toList ++ rest') :
    c = d ∧ rest = rest' := by
  have hhead : (Text.bare c).toList.head? = (Text.bare d).toList.head? := by
    have hheads := congrArg List.head? h
    rwa [List.head?_append_of_ne_nil _ (bare_ne_nil c),
      List.head?_append_of_ne_nil _ (bare_ne_nil d)] at hheads
  by_cases hquote : (Text.bare c).toList.head? = some '"'
  · rw [(Text.head?_bare c).mp hquote, (Text.head?_bare d).mp (hhead ▸ hquote)] at h
    have hread := Text.text?_quote .file c rest
    rw [h, Text.text?_quote .file d rest', Option.some.injEq, Prod.mk.injEq] at hread
    exact ⟨hread.1.symm, hread.2.symm⟩
  · have hself {s : String} (hs : (Text.bare s).toList.head? ≠ some '"') : Text.bare s = s :=
      ((Text.bare_cases s).resolve_left fun hq => hs ((Text.head?_bare s).mpr hq)).1
    rw [hself hquote, hself (hhead ▸ hquote)] at h
    obtain ⟨hchars, hrest⟩ := append_inj_of_bytes h (hc.trans hd.symm)
    exact ⟨String.toList_injective hchars, hrest⟩

/-- The list a text of codes was made of, one code after the other. -/
theorem eq_of_flatMap_bare {cs ds : List String} (hcs : ∀ c ∈ cs, (Utf8.encode c).length = 2)
    (hds : ∀ d ∈ ds, (Utf8.encode d).length = 2)
    (h : cs.flatMap (fun c => ',' :: (Text.bare c).toList) =
      ds.flatMap (fun d => ',' :: (Text.bare d).toList)) : cs = ds := by
  induction cs generalizing ds with
  | nil =>
    cases ds with
    | nil => rfl
    | cons d ds => cases h
  | cons c cs ih =>
    cases ds with
    | nil => cases h
    | cons d ds =>
      rw [List.flatMap_cons, List.flatMap_cons, List.cons_append, List.cons_append,
        List.cons.injEq] at h
      rw [List.forall_mem_cons] at hcs hds
      obtain ⟨rfl, hrest⟩ := bare_append_inj hcs.1 hds.1 h.2
      rw [ih hcs.2 hds.2 hrest]

theorem comma_join_bare (c : String) (cs : List String) :
    ',' :: Text.join [','] (((c :: cs).map Text.bare).map String.toList) =
      (c :: cs).flatMap fun c => ',' :: (Text.bare c).toList := by
  rw [List.map_cons, List.map_cons, Text.join_cons, List.flatMap_map, List.flatMap_map]
  rfl

theorem bracketed_bare_injective {cs ds : List String}
    (hcs : ∀ c ∈ cs, (Utf8.encode c).length = 2) (hds : ∀ d ∈ ds, (Utf8.encode d).length = 2)
    (h : bracketed (cs.map Text.bare) = bracketed (ds.map Text.bare)) : cs = ds := by
  have hjoined := congrArg String.toList h
  rw [toList_bracketed, toList_bracketed, List.cons_append, List.cons_append, List.cons.injEq,
    List.append_cancel_right_eq] at hjoined
  have hnil (c : String) (cs : List String) :
      Text.join [','] (((c :: cs).map Text.bare).map String.toList) ≠ [] := by
    rw [List.map_cons, List.map_cons, Text.join_cons]
    exact List.append_ne_nil_of_left_ne_nil (bare_ne_nil c) _
  cases cs with
  | nil =>
    cases ds with
    | nil => rfl
    | cons d ds => exact absurd hjoined.2.symm (hnil d ds)
  | cons c cs =>
    cases ds with
    | nil => exact absurd hjoined.2 (hnil c cs)
    | cons d ds =>
      apply eq_of_flatMap_bare hcs hds
      rw [← comma_join_bare, ← comma_join_bare, hjoined.2]

/-- What a side of many hosts has for a text of its country codes, as it stands in its pairs. -/
def codesText? (room : Option Nat) (label : String) (side : Value) :
    Option (Except Excess String) :=
  (Builder.sideAttempts? room label side).bind (List.lookup (label ++ "_country_codes"))

theorem codesText?_group (room : Option Nat) (label : String) (addrs ports codes : List Value) :
    codesText? room label (.group addrs ports codes) =
      some ((attemptAll room codes).map fun _ => bracketed ((decodeAll codes).map Text.bare)) := by
  have hne (word : String) (h : word ≠ "_country_codes") :
      (label ++ "_country_codes" == label ++ word) = false :=
    beq_false_of_ne fun heq => h (String.append_right_inj label |>.mp heq).symm
  rw [codesText?, Builder.sideAttempts?, Option.bind_some, List.lookup_cons, hne _ (by decide),
    List.lookup_cons, hne _ (by decide), List.lookup_cons_self]
  cases hcodes : attemptAll room codes with
  | error cause => rfl
  | ok cs =>
    rw [attemptAll_ok hcodes]
    rfl

/-- The text of the country codes of many hosts can be read in one way only. Two lists of whatever
was given as codes have the same text exactly where they are read as the same codes in the same
order, whatever characters these are made of. There is a text of all codes that are bytes or
missing. -/
theorem codesText_iff (room : Option Nat) (label : String)
    (addrs ports codes addrs' ports' codes' : List Value) :
    ∃ text text',
      codesText? room label (.group addrs ports codes) =
        some ((attemptAll room codes).map fun _ => text) ∧
      codesText? room label (.group addrs' ports' codes') =
        some ((attemptAll room codes').map fun _ => text') ∧
      (text = text' ↔ decodeAll codes = decodeAll codes') ∧
      ∀ raws, (∀ raw ∈ raws, raw = .none ∨ ∃ bs, raw = .bytes bs) →
        attemptAll room raws = .ok (decodeAll raws) := by
  refine ⟨_, _, codesText?_group .., codesText?_group .., ⟨fun h => ?_, fun h => by rw [h]⟩,
    fun raws hraws => attemptAll_of_shown fun raw hraw => ?_⟩
  · exact bracketed_bare_injective (length_of_mem_decodeAll codes) (length_of_mem_decodeAll codes') h
  · rcases hraws raw hraw with rfl | ⟨bs, rfl⟩ <;> rfl

-- one code of two commas, and one of two brackets
example : codesText? none "orig" (.group [] [] [.bytes [0x2C, 0x2C], .bytes [0x5D, 0x5B], .none]) =
    some (.ok "[,,,][,XX]") := by decide +kernel

end Detection.Country
