import Detection.Proofs.Json.Documents
import Detection.Proofs.Json.Numbers

/-! # Documents read back as they are written

A value that a document can hold is written and read back as it was, as long as it is not nested too
deep, no number in it is too long and no surrogate stands alone in it. Otherwise it is refused.
-/

namespace Detection.Json

/-! ## Reading that may be refused -/

/-- What reading gives: this where it is accepted, an error otherwise. -/
def Yields {α : Type} (r : Except Problem α) (accepted : Bool) (x : α) : Prop :=
  if accepted then r = .ok x else ∃ p, r = .error p

section Yields

variable {α β : Type} {r : Except Problem α} {x : α} {a b : Bool}

theorem yields_ok (x : α) : Yields (.ok x) true x := rfl

theorem yields_error (p : Problem) (x : α) : Yields (.error p) false x := ⟨p, rfl⟩

theorem Yields.bind (h : Yields r a x) {f : α → Except Problem β} {y : β}
    (hf : a = true → Yields (f x) b y) : Yields (r >>= f) (a && b) y := by
  cases a with
  | true =>
    obtain rfl : r = .ok x := h
    exact hf rfl
  | false =>
    obtain ⟨p, rfl⟩ : ∃ p, r = .error p := h
    exact ⟨p, rfl⟩

theorem Yields.map (h : Yields r a x) (f : α → β) : Yields (f <$> r) a (f x) := by
  cases a with
  | true =>
    obtain rfl : r = .ok x := h
    exact rfl
  | false =>
    obtain ⟨p, rfl⟩ : ∃ p, r = .error p := h
    exact ⟨p, rfl⟩

end Yields

/-! ## Words and numbers -/

theorem words_long : ∀ w ∈ words, 2 ≤ w.1.toList.length := by decide

theorem words_undigited : ∀ w ∈ words, w.1.toList.all (!·.isDigit) = true := by decide

theorem word?_digit {cs : List Char} {i : Nat} (hi : i < 2) {c : Char} (hc : cs[i]? = some c)
    (hdigit : c.isDigit = true) : word? cs = none := by
  rw [word?, List.findSome?_eq_none_iff]
  rintro ⟨w, v⟩ hw
  apply if_neg
  rw [List.isPrefixOf_iff_prefix, List.prefix_iff_eq_take]
  intro htake
  have hmem : c ∈ w.toList := by
    rw [htake]
    apply List.mem_of_getElem? (i := i)
    rw [List.getElem?_take_of_lt (Nat.lt_of_lt_of_le hi (words_long _ hw)), hc]
  have hundigited := List.all_eq_true.mp (words_undigited _ hw) c hmem
  rw [hdigit] at hundigited
  cases hundigited

theorem word?_append {w : String} {v : Value} (h : (w, v) ∈ words) (rest : List Char) :
    word? (w.toList ++ rest) = some (v, rest) := by
  simp only [words, List.mem_cons, List.not_mem_nil, or_false, Prod.mk.injEq] at h
  rcases h with ⟨rfl, rfl⟩ | ⟨rfl, rfl⟩ | ⟨rfl, rfl⟩ | ⟨rfl, rfl⟩ | ⟨rfl, rfl⟩ | ⟨rfl, rfl⟩
  all_goals rfl

/-- Characters that no word or number starts with. -/
def marks : List Char := "\"[]\x7b\x7d \t\n\r\ufeff".toList

/-- A text that reads as a value of no parts, in front of anything that does not go on with it. -/
structure Atom (cs : List Char) (v : Value) : Prop where
  head : ∃ c r, cs = c :: r ∧ c ∉ marks
  read : ∀ rest, Stops rest → (word? (cs ++ rest)).or (number? (cs ++ rest)) = some (v, rest)

theorem atom_word {w : String} {v : Value} (h : (w, v) ∈ words) : Atom w.toList v where
  head := by
    have hhead : ∀ w ∈ words, w.1.toList.all (· ∉ marks) = true := by decide
    obtain ⟨c, r, hw⟩ := List.exists_cons_of_length_pos
      (Nat.lt_of_lt_of_le Nat.two_pos (words_long _ h))
    have hc : c ∈ w.toList := by
      rw [hw]
      exact List.mem_cons_self
    exact ⟨c, r, hw, of_decide_eq_true (List.all_eq_true.mp (hhead _ h) c hc)⟩
  read rest _ := by
    rw [word?_append h]
    rfl

theorem atom_numeral (n : Numeral) (negative : Bool) :
    Atom ((if negative then ['-'] else []) ++ n.chars)
      (if n.isWhole then .int (if negative then -(n.digits : Int) else n.digits)
        else .real (Binary64.ofDecimal negative n.digits n.scale)) := by
  obtain ⟨c, cs, hchars, hdigit⟩ := n.head?_chars
  refine ⟨?_, fun rest hrest => ?_⟩
  · rw [hchars]
    cases negative with
    | true => exact ⟨'-', c :: cs, rfl, by decide⟩
    | false =>
      refine ⟨c, cs, rfl, fun hc => ?_⟩
      have hmarks : marks.all (!·.isDigit) = true := by decide
      have hundigited := List.all_eq_true.mp hmarks c hc
      rw [hdigit] at hundigited
      cases hundigited
  · have hword : word? ((if negative then ['-'] else []) ++ n.chars ++ rest) = none := by
      rw [hchars]
      cases negative with
      | true => exact word?_digit (i := 1) (by decide) rfl hdigit
      | false => exact word?_digit (i := 0) (by decide) rfl hdigit
    rw [hword, Option.none_or, List.append_assoc, number?_numeral n negative hrest]

theorem atom_none : Atom (write .none) .none := atom_word (w := "null") (by simp [words])

theorem atom_flag (b : Bool) : Atom (write (.flag b)) (.flag b) := by
  cases b with
  | true => exact atom_word (w := "true") (by simp [words])
  | false => exact atom_word (w := "false") (by simp [words])

theorem atom_int (n : Int) : Atom (toString n).toList (.int n) := by
  obtain ⟨negative, m, rfl, htext⟩ := exists_sign n
  have hatom := atom_numeral (.ofNat m) negative
  rw [Numeral.digits_ofNat] at hatom
  rw [htext]
  exact hatom

theorem atom_real (x : Binary64) : Atom (realChars x) (.real x) := by
  cases x with
  | nan => exact atom_word (w := "NaN") (by simp [words])
  | infinity negative =>
    cases negative with
    | true => exact atom_word (w := "-Infinity") (by simp [words])
    | false => exact atom_word (w := "Infinity") (by simp [words])
  | finite negative rank =>
    obtain ⟨n, hchars, hwhole, hvalue⟩ := exists_numeral negative rank
    have hatom := atom_numeral n negative
    rw [hwhole, hvalue, ← hchars] at hatom
    exact hatom

section

variable {d : Dialect} {depth : Nat}

theorem value_deep (h : d.allows depth = false) (fuel : Nat) (cs : List Char) :
    ∃ p, value d depth fuel cs = .error p := by
  rw [Dialect.allows, Bool.not_eq_false'] at h
  rw [value.eq_def]
  cases fuel with
  | zero => exact ⟨_, rfl⟩
  | succ fuel => exact ⟨_, if_pos h⟩

theorem yields_value {cs : List Char} {fuel : Nat} {accepted : Bool} {r : Value × List Char}
    (h : d.allows depth = true → Yields (value d depth fuel cs) accepted r) :
    Yields (value d depth fuel cs) (d.allows depth && accepted) r := by
  cases hdepth : d.allows depth with
  | true => exact h hdepth
  | false => exact value_deep hdepth fuel cs

theorem value_atom {cs : List Char} {v : Value} (h : Atom cs v) (fuel : Nat) {rest : List Char}
    (hrest : Stops rest) :
    Yields (value d depth (fuel + 1) (cs ++ rest)) (d.allows depth && (d.overlong? v).isNone)
      (v, rest) := by
  refine yields_value fun hdepth => ?_
  have hread := h.read rest hrest
  obtain ⟨c, r, rfl, hc⟩ := h.head
  rw [Dialect.allows, Bool.not_eq_true'] at hdepth
  rw [value.eq_def]
  simp only [hdepth, Bool.false_eq_true, if_false]
  split
  · rename_i heq
    cases heq
    exact absurd (by decide) hc
  · rename_i heq
    cases heq
    exact absurd (by decide) hc
  · rename_i heq
    cases heq
    exact absurd (by decide) hc
  · rw [hread]
    simp only
    cases d.overlong? v with
    | none => exact yields_ok _
    | some cause => exact yields_error _ _

end

/-! ## Strings -/

theorem exists_points {d : Dialect} (hd : d.loneSurrogates = false) {v : Value}
    (h : v.isString = true) :
    ∃ points, write v = '"' :: (points.flatMap escape ++ ['"']) ∧
      (v.isText = true → ofPoints points = v) ∧
      ∀ rest, Yields (string d (points.flatMap escape ++ '"' :: rest)) v.isText (points, rest) := by
  cases v with
  | text s =>
    exact ⟨_, rfl, fun _ => ofPoints_text s, fun rest => string_plain d (plain_text s) rest⟩
  | broken points =>
    simp only [Value.isString, Bool.and_eq_true, List.any_eq_true, List.all_eq_true,
      decide_eq_true_eq] at h
    obtain ⟨⟨hsurrogate, hpoints⟩, hunpaired⟩ := h
    refine ⟨points, rfl, by simp [Value.isText], fun rest => ?_⟩
    exact string_alone hd hpoints hunpaired hsurrogate rest
  | _ => cases h

theorem value_quoted {d : Dialect} {depth : Nat} (hdepth : d.allows depth = true) (fuel : Nat)
    (cs : List Char) :
    value d depth (fuel + 1) ('"' :: cs) =
      (fun r => (ofPoints r.1, r.2)) <$> string d cs := by
  rw [Dialect.allows, Bool.not_eq_true'] at hdepth
  rw [value.eq_def]
  simp only [hdepth, Bool.false_eq_true, if_false]
  cases string d cs <;> rfl

theorem value_string {d : Dialect} (hd : d.loneSurrogates = false) {v : Value}
    (h : v.isString = true) (depth fuel : Nat) (rest : List Char) :
    Yields (value d depth (fuel + 1) (write v ++ rest)) (d.allows depth && v.isText) (v, rest) := by
  obtain ⟨points, hwrite, hpoints, hstring⟩ := exists_points hd h
  refine yields_value fun hdepth => ?_
  rw [hwrite, List.cons_append, List.append_assoc, List.singleton_append, value_quoted hdepth]
  cases htext : v.isText with
  | true =>
    have hread := hstring rest
    rw [htext] at hread
    have hmap := hread.map fun r => (ofPoints r.1, r.2)
    rwa [hpoints htext] at hmap
  | false =>
    have hread := hstring rest
    rw [htext] at hread
    exact hread.map (x := (points, rest)) fun r => (ofPoints r.1, r.2)

/-! ## Arrays and objects -/

/-- A text that starts with no blank, no end of an array or object and no byte order mark. -/
def Opens (cs : List Char) : Prop :=
  ∃ c r, cs = c :: r ∧ isBlank c = false ∧ c ≠ ']' ∧ c ≠ '\x7d' ∧ c ≠ '\ufeff'

theorem Opens.append {cs : List Char} (h : Opens cs) (more : List Char) : Opens (cs ++ more) := by
  obtain ⟨c, r, rfl, hc⟩ := h
  exact ⟨c, r ++ more, rfl, hc⟩

theorem Opens.skip {cs : List Char} (h : Opens cs) : skip cs = cs := by
  obtain ⟨c, r, rfl, hc, -⟩ := h
  rw [Json.skip, List.dropWhile_cons_of_neg (by rw [hc]; exact Bool.false_ne_true)]

theorem Opens.skip_gap {cs gap : List Char} (h : Opens cs) (hgap : ∀ c ∈ gap, isBlank c = true) :
    Json.skip (gap ++ cs) = cs := by
  rw [Json.skip, List.dropWhile_append_of_pos hgap]
  exact h.skip

/-- A value takes one unit of fuel and at least one character, so the length of a text is enough. -/
theorem Opens.exists_fuel {cs : List Char} (h : Opens cs) {fuel : Nat} (hfuel : cs.length ≤ fuel) :
    ∃ n, fuel = n + 1 := by
  obtain ⟨c, r, rfl, -⟩ := h
  exact Nat.exists_eq_add_one.mpr (Nat.lt_of_lt_of_le (Nat.succ_pos r.length) hfuel)

theorem Atom.opens {cs : List Char} {v : Value} (h : Atom cs v) : Opens cs := by
  obtain ⟨c, r, rfl, hc⟩ := h.head
  have hne {m : Char} (hm : m ∈ marks) : c ≠ m := fun heq => hc (heq ▸ hm)
  have hblank : c ≠ ' ' ∧ c ≠ '\t' ∧ c ≠ '\n' ∧ c ≠ '\r' :=
    ⟨hne (by decide), hne (by decide), hne (by decide), hne (by decide)⟩
  exact ⟨c, r, rfl, by simp [isBlank, hblank], hne (by decide), hne (by decide), hne (by decide)⟩

theorem opens_string {d : Dialect} (hd : d.loneSurrogates = false) {v : Value}
    (h : v.isString = true) : Opens (write v) := by
  obtain ⟨points, hwrite, -⟩ := exists_points hd h
  exact ⟨_, _, hwrite, by decide⟩

theorem opens_write {v : Value} (h : v.isDocument = true) : Opens (write v) := by
  cases v with
  | none => exact (atom_none).opens
  | flag b => exact (atom_flag b).opens
  | int n => exact (atom_int n).opens
  | real x => exact (atom_real x).opens
  | text s => exact ⟨_, _, rfl, by decide⟩
  | broken points => exact ⟨_, _, rfl, by decide⟩
  | list items => exact ⟨_, _, rfl, by decide⟩
  | dict entries => exact ⟨_, _, rfl, by decide⟩
  | _ => cases h

theorem stops_of_head {c : Char} (hc : c ∈ [',', ']', '\x7d']) (cs : List Char) :
    Stops (c :: cs) := by
  intro c' hc'
  cases hc'
  simp only [List.mem_cons, List.not_mem_nil, or_false] at hc
  rcases hc with rfl | rfl | rfl <;> decide

theorem value_array {d : Dialect} {depth fuel : Nat} {cs : List Char} (hcs : Opens cs)
    {accepted : Bool} {items : List Value} {rest : List Char}
    (h : Yields (elements d (depth + 1) fuel cs) accepted (items, rest)) :
    Yields (value d depth (fuel + 1) ('[' :: cs)) (d.allows depth && accepted)
      (.list items, rest) := by
  refine yields_value fun hdepth => ?_
  rw [Dialect.allows, Bool.not_eq_true'] at hdepth
  have hvalue : value d depth (fuel + 1) ('[' :: cs) =
      (fun r => (.list r.1, r.2)) <$> elements d (depth + 1) fuel cs := by
    rw [value.eq_def]
    simp only [hdepth, Bool.false_eq_true, if_false, hcs.skip]
    obtain ⟨c, r, rfl, -, hclosed, -⟩ := hcs
    split
    · rename_i heq
      cases heq
      exact absurd rfl hclosed
    · cases elements d (depth + 1) fuel (c :: r) <;> rfl
  rw [hvalue]
  exact h.map fun r => (Value.list r.1, r.2)

theorem value_object {d : Dialect} {depth fuel : Nat} {cs : List Char} (hcs : Opens cs)
    {accepted : Bool} {entries : Mapping} {rest : List Char}
    (h : Yields (members d (depth + 1) fuel [] cs) accepted (entries, rest)) :
    Yields (value d depth (fuel + 1) ('\x7b' :: cs)) (d.allows depth && accepted)
      (.dict entries, rest) := by
  refine yields_value fun hdepth => ?_
  rw [Dialect.allows, Bool.not_eq_true'] at hdepth
  have hvalue : value d depth (fuel + 1) ('\x7b' :: cs) =
      (fun r => (.dict r.1, r.2)) <$> members d (depth + 1) fuel [] cs := by
    rw [value.eq_def]
    simp only [hdepth, Bool.false_eq_true, if_false, hcs.skip]
    obtain ⟨c, r, rfl, -, -, hclosed, -⟩ := hcs
    split
    · rename_i heq
      cases heq
      exact absurd rfl hclosed
    · cases members d (depth + 1) fuel [] (c :: r) <;> rfl
  rw [hvalue]
  exact h.map fun r => (Value.dict r.1, r.2)

theorem join_cons (sep p q : List Char) (ps : List (List Char)) :
    Text.join sep (p :: q :: ps) = p ++ (sep ++ Text.join sep (q :: ps)) := by
  rw [Text.join, List.append_assoc]

theorem opens_join {sep p : List Char} (hp : Opens p) (ps : List (List Char)) :
    Opens (Text.join sep (p :: ps)) := by
  cases ps with
  | nil => exact hp
  | cons q ps =>
    rw [join_cons]
    exact hp.append _

theorem elements_last {d : Dialect} {depth fuel : Nat} {cs rest : List Char} {v : Value}
    {accepted : Bool} (h : Yields (value d depth fuel cs) accepted (v, ']' :: rest)) :
    Yields (elements d depth (fuel + 1) cs) accepted ([v], rest) := by
  rw [elements.eq_def, ← Bool.and_true accepted]
  exact h.bind fun _ => yields_ok _

theorem elements_more {d : Dialect} {depth fuel : Nat} {cs gap more rest : List Char} {v : Value}
    {vs : List Value} {a b : Bool} (hgap : skip (gap ++ more) = more)
    (h : Yields (value d depth fuel cs) a (v, ',' :: (gap ++ more)))
    (hrest : Yields (elements d depth fuel more) b (vs, rest)) :
    Yields (elements d depth (fuel + 1) cs) (a && b) (v :: vs, rest) := by
  rw [elements.eq_def]
  refine h.bind fun _ => ?_
  change Yields (elements d depth fuel (skip (gap ++ more)) >>= _) _ _
  rw [hgap, ← Bool.and_true b]
  exact hrest.bind fun _ => yields_ok _

section Items

variable {α : Type} {d : Dialect} {depth fuel : Nat} {gap : List Char} {text : α → List Char}
  {back : α → Value} {accepted : α → Bool} {xs : List α}

theorem yields_elements (hgap : ∀ c ∈ gap, isBlank c = true) (hopens : ∀ x ∈ xs, Opens (text x))
    (h : ∀ x ∈ xs, ∀ (fuel : Nat) (rest : List Char), (text x).length ≤ fuel → Stops rest →
      Yields (value d depth fuel (text x ++ rest)) (accepted x) (back x, rest))
    (hne : xs ≠ []) (hfuel : (Text.join (',' :: gap) (xs.map text)).length < fuel)
    (rest : List Char) :
    Yields (elements d depth fuel (Text.join (',' :: gap) (xs.map text) ++ ']' :: rest))
      (xs.all accepted) (xs.map back, rest) := by
  induction xs generalizing fuel with
  | nil => exact absurd rfl hne
  | cons x xs ih =>
    obtain ⟨fuel, rfl⟩ := Nat.exists_eq_add_one.mpr (Nat.zero_lt_of_lt hfuel)
    obtain ⟨hx, hxs⟩ := List.forall_mem_cons.mp h
    cases xs with
    | nil =>
      rw [List.all_cons, List.all_nil, Bool.and_true]
      exact elements_last (hx fuel _ (Nat.le_of_lt_succ hfuel) (stops_of_head (by simp) rest))
    | cons y ys =>
      obtain ⟨-, hopens⟩ := List.forall_mem_cons.mp hopens
      rw [List.map_cons, List.map_cons, join_cons, ← List.map_cons, List.length_append,
        List.length_append] at hfuel
      rw [List.map_cons, List.map_cons, join_cons, ← List.map_cons, List.append_assoc,
        List.append_assoc, List.all_cons]
      -- behind the comma the next element begins
      have hmore : Opens (Text.join (',' :: gap) ((y :: ys).map text) ++ ']' :: rest) :=
        (opens_join (hopens y List.mem_cons_self) (ys.map text)).append _
      have hfuel' : (Text.join (',' :: gap) ((y :: ys).map text)).length < fuel := by
        simp only [List.length_cons] at hfuel
        omega
      have hrest := ih hopens hxs (List.cons_ne_nil y ys) hfuel'
      exact elements_more (hmore.skip_gap hgap)
        (hx fuel _ (by omega) (stops_of_head (by simp) _)) hrest

theorem yields_list (hgap : ∀ c ∈ gap, isBlank c = true) (hopens : ∀ x ∈ xs, Opens (text x))
    (h : ∀ x ∈ xs, ∀ (fuel : Nat) (rest : List Char), (text x).length ≤ fuel → Stops rest →
      Yields (value d (depth + 1) fuel (text x ++ rest)) (accepted x) (back x, rest))
    (hfuel : (Text.join (',' :: gap) (xs.map text)).length < fuel) (rest : List Char) :
    Yields (value d depth (fuel + 1) ('[' :: Text.join (',' :: gap) (xs.map text) ++ ']' :: rest))
      (d.allows depth && xs.all accepted) (.list (xs.map back), rest) := by
  cases xs with
  | nil =>
    refine yields_value fun hdepth => ?_
    rw [Dialect.allows, Bool.not_eq_true'] at hdepth
    rw [value.eq_def]
    simp only [hdepth]
    exact yields_ok _
  | cons x xs =>
    have hcs : Opens (Text.join (',' :: gap) ((x :: xs).map text) ++ ']' :: rest) :=
      (opens_join (hopens x List.mem_cons_self) (xs.map text)).append _
    exact value_array hcs (yields_elements hgap hopens h (List.cons_ne_nil x xs) hfuel rest)

end Items

theorem put_fresh {m : Mapping} {key : Value} (h : ∀ e ∈ m, Mapping.sameKey e.1 key = false)
    (v : Value) : m.put key v = m ++ [(key, v)] := by
  induction m with
  | nil => rfl
  | cons e es ih =>
    obtain ⟨he, hes⟩ := List.forall_mem_cons.mp h
    rw [Mapping.put, he, ih hes]
    rfl

section Members

variable {d : Dialect} {depth fuel : Nat} {sofar : Mapping} {key v : Value} {cs rest : List Char}
  {a : Bool}

theorem members_last (hd : d.loneSurrogates = false) (hkey : key.isString = true) (hcs : Opens cs)
    (hfresh : ∀ e ∈ sofar, Mapping.sameKey e.1 key = false)
    (h : Yields (value d depth fuel cs) a (v, '\x7d' :: rest)) :
    Yields (members d depth (fuel + 1) sofar (write key ++ ([':', ' '] ++ cs))) (key.isText && a)
      (sofar ++ [(key, v)], rest) := by
  obtain ⟨points, hwrite, hpoints, hstring⟩ := exists_points hd hkey
  have hskip : skip (' ' :: cs) = cs := hcs.skip
  rw [hwrite, members.eq_def, ← Bool.and_true a]
  simp only [List.cons_append, List.append_assoc, List.nil_append]
  refine (hstring _).bind fun htext => ?_
  change Yields (value d depth fuel (skip (' ' :: cs)) >>= _) _ _
  rw [hskip]
  refine h.bind fun _ => ?_
  rw [hpoints htext, put_fresh hfresh]
  exact yields_ok _

theorem members_more (hd : d.loneSurrogates = false) (hkey : key.isString = true) (hcs : Opens cs)
    (hfresh : ∀ e ∈ sofar, Mapping.sameKey e.1 key = false) {more : List Char} (hmore : Opens more)
    (h : Yields (value d depth fuel cs) a (v, ',' :: ' ' :: more)) {entries : Mapping} {b : Bool}
    (hrest : Yields (members d depth fuel (sofar ++ [(key, v)]) more) b (entries, rest)) :
    Yields (members d depth (fuel + 1) sofar (write key ++ ([':', ' '] ++ cs)))
      (key.isText && (a && b)) (entries, rest) := by
  obtain ⟨points, hwrite, hpoints, hstring⟩ := exists_points hd hkey
  have hskip : skip (' ' :: cs) = cs := hcs.skip
  have hskip' : skip (' ' :: more) = more := hmore.skip
  rw [hwrite, members.eq_def]
  simp only [List.cons_append, List.append_assoc, List.nil_append]
  refine (hstring _).bind fun htext => ?_
  change Yields (value d depth fuel (skip (' ' :: cs)) >>= _) _ _
  rw [hskip]
  refine h.bind fun _ => ?_
  change Yields (members d depth fuel _ (skip (' ' :: more))) _ _
  rw [hpoints htext, put_fresh hfresh, hskip']
  exact hrest

end Members

/-! ## Whole values -/

theorem writeAll_eq_map (vs : List Value) : writeAll vs = vs.map write := by
  induction vs with
  | nil => rfl
  | cons v vs ih => rw [writeAll, ih, List.map_cons]

theorem opens_writeEntries {key v : Value} {es : Mapping}
    (h : Value.haveDocuments ((key, v) :: es) = true) (more : List Char) :
    Opens (Text.join [',', ' '] (writeEntries ((key, v) :: es)) ++ more) := by
  simp only [Value.haveDocuments, Bool.and_eq_true] at h
  have hkey := opens_string (d := .record) rfl h.1.1.1
  exact (opens_join ((hkey.append _).append _) (writeEntries es)).append more

theorem value_dict {d : Dialect} {depth fuel : Nat} {es : Mapping} {rest : List Char}
    (h : Value.haveDocuments es = true)
    (hmembers : es ≠ [] →
      Yields (members d (depth + 1) fuel []
        (Text.join [',', ' '] (writeEntries es) ++ '\x7d' :: rest))
        (Value.fitEntries d (depth + 1) es) (es, rest)) :
    Yields (value d depth (fuel + 1) (write (.dict es) ++ rest)) ((Value.dict es).fits d depth)
      (.dict es, rest) := by
  rw [write, List.cons_append, List.cons_append, List.append_assoc]
  cases es with
  | nil =>
    refine yields_value fun hdepth => ?_
    rw [Dialect.allows, Bool.not_eq_true'] at hdepth
    rw [value.eq_def]
    simp only [hdepth]
    exact yields_ok _
  | cons e es => exact value_object (opens_writeEntries h _) (hmembers (List.cons_ne_nil e es))

mutual

/-- What is written of a document value reads back where it fits, and is refused where not. -/
theorem yields_write {d : Dialect} (hd : d.loneSurrogates = false) (v : Value)
    (h : v.isDocument = true) (depth fuel : Nat) (hfuel : (write v).length ≤ fuel)
    (rest : List Char) (hrest : Stops rest) :
    Yields (value d depth fuel (write v ++ rest)) (v.fits d depth) (v, rest) := by
  obtain ⟨fuel, rfl⟩ := (opens_write h).exists_fuel hfuel
  match v with
  | .none => exact value_atom atom_none fuel hrest
  | .flag b => exact value_atom (atom_flag b) fuel hrest
  | .int n => exact value_atom (atom_int n) fuel hrest
  | .real x => exact value_atom (atom_real x) fuel hrest
  | .text s => exact value_string hd (v := .text s) rfl depth fuel rest
  | .broken points =>
    have hread := value_string hd (v := .broken points) h depth fuel rest
    have htext : (Value.broken points).isText = false := rfl
    rwa [htext, Bool.and_false] at hread
  | .list vs =>
    have hfuel' : (Text.join [',', ' '] (vs.map write)).length < fuel := by
      rw [write, writeAll_eq_map, List.length_append, List.length_cons, List.length_singleton]
        at hfuel
      omega
    have hgap : ∀ c ∈ [' '], isBlank c = true := List.forall_mem_singleton.mpr rfl
    have hopens : ∀ v ∈ vs, Opens (write v) := fun v hv =>
      opens_write (Value.areDocuments_iff.mp h v hv)
    have heach : ∀ v ∈ vs, ∀ (fuel : Nat) (rest : List Char), (write v).length ≤ fuel →
        Stops rest → Yields (value d (depth + 1) fuel (write v ++ rest)) (v.fits d (depth + 1))
          (id v, rest) := fun v hv => yields_writeEach hd vs h v hv (depth + 1)
    have hlist := yields_list hgap hopens heach hfuel' rest
    rw [List.map_id, ← Value.fitAll_eq_all, ← writeAll_eq_map] at hlist
    rw [write, List.append_assoc]
    exact hlist
  | .dict es =>
    rw [write, List.length_append, List.length_cons, List.length_singleton] at hfuel
    exact value_dict h fun hne =>
      yields_writeEntries hd es hne h [] (by simp) (depth + 1) fuel (by omega) rest

theorem yields_writeEach {d : Dialect} (hd : d.loneSurrogates = false) (vs : List Value)
    (h : Value.areDocuments vs = true) (v : Value) (hv : v ∈ vs) (depth fuel : Nat)
    (rest : List Char) (hfuel : (write v).length ≤ fuel) (hrest : Stops rest) :
    Yields (value d depth fuel (write v ++ rest)) (v.fits d depth) (v, rest) := by
  match vs with
  | [] => cases hv
  | w :: ws =>
    rw [Value.areDocuments, Bool.and_eq_true] at h
    rcases List.mem_cons.mp hv with heq | hv
    · rw [heq] at hfuel ⊢
      exact yields_write hd w h.1 depth fuel hfuel rest hrest
    · exact yields_writeEach hd ws h.2 v hv depth fuel rest hfuel hrest

theorem yields_writeEntries {d : Dialect} (hd : d.loneSurrogates = false) (es : Mapping)
    (hne : es ≠ []) (h : Value.haveDocuments es = true) (sofar : Mapping)
    (hfresh : ∀ e ∈ sofar, ∀ e' ∈ es, Mapping.sameKey e.1 e'.1 = false) (depth fuel : Nat)
    (hfuel : (Text.join [',', ' '] (writeEntries es)).length < fuel) (rest : List Char) :
    Yields (members d depth fuel sofar (Text.join [',', ' '] (writeEntries es) ++ '\x7d' :: rest))
      (Value.fitEntries d depth es) (sofar ++ es, rest) := by
  obtain ⟨fuel, rfl⟩ := Nat.exists_eq_add_one.mpr (Nat.zero_lt_of_lt hfuel)
  match es with
  | [] => exact absurd rfl hne
  | [(key, v)] =>
    simp only [Value.haveDocuments, Bool.and_eq_true] at h
    obtain ⟨⟨⟨hkey, -⟩, hdocument⟩, -⟩ := h
    have hfuel' : (write key ++ [':', ' '] ++ write v).length < fuel + 1 := hfuel
    rw [List.length_append] at hfuel'
    have hv := yields_write hd v hdocument depth fuel (by omega) ('\x7d' :: rest)
      (stops_of_head (by simp) rest)
    have hfresh' : ∀ e ∈ sofar, Mapping.sameKey e.1 key = false := fun e he =>
      hfresh e he (key, v) List.mem_cons_self
    have hlast := members_last hd hkey ((opens_write hdocument).append _) hfresh' hv
    simpa only [Value.fitEntries, Bool.and_true, writeEntries, Text.join, List.append_assoc]
      using hlast
  | (key, v) :: (key', v') :: es =>
    rw [Value.haveDocuments] at h
    simp only [Bool.and_eq_true] at h
    obtain ⟨⟨⟨hkey, hall⟩, hdocument⟩, hdocuments⟩ := h
    rw [writeEntries, writeEntries, join_cons, ← writeEntries, List.length_append,
      List.length_append, List.length_append] at hfuel
    rw [writeEntries, writeEntries, join_cons, ← writeEntries]
    simp only [List.append_assoc]
    have hv := yields_write hd v hdocument depth fuel (by omega)
      ([',', ' '] ++ (Text.join [',', ' '] (writeEntries ((key', v') :: es)) ++ '\x7d' :: rest))
      (stops_of_head (by simp) _)
    -- the entries read so far now include this one, which no later key repeats
    have hfresh' : ∀ e ∈ sofar ++ [(key, v)], ∀ e' ∈ (key', v') :: es,
        Mapping.sameKey e.1 e'.1 = false := by
      intro e he e' he'
      rcases List.mem_append.mp he with he | he
      · exact hfresh e he e' (List.mem_cons_of_mem _ he')
      · obtain rfl := List.mem_singleton.mp he
        simpa using List.all_eq_true.mp hall e' he'
    have hmembers := yields_writeEntries hd ((key', v') :: es) (List.cons_ne_nil _ _) hdocuments
      (sofar ++ [(key, v)]) hfresh' depth fuel
      (by simp only [List.length_append, List.length_cons] at hfuel; omega) rest
    have hmore := members_more hd hkey ((opens_write hdocument).append _)
      (fun e he => hfresh e he (key, v) List.mem_cons_self)
      (opens_writeEntries hdocuments _) hv hmembers
    rw [Value.fitEntries, Bool.and_assoc]
    simpa only [List.append_assoc, List.singleton_append] using hmore

end

theorem yields_read {d : Dialect} {cs : List Char} (hcs : Opens cs) {accepted : Bool} {v : Value}
    (h : Yields (value d 0 (2 * cs.length + 2) cs) accepted (v, [])) :
    Yields (read d cs) accepted v := by
  have hskip := hcs.skip
  obtain ⟨c, r, rfl, -, -, -, hmark⟩ := hcs
  have hhead : ¬ (c :: r).head? = some '\ufeff' := by
    rw [List.head?_cons, Option.some.injEq]
    exact hmark
  rw [read, if_neg hhead, hskip]
  cases accepted with
  | true =>
    obtain h : value d 0 (2 * (c :: r).length + 2) (c :: r) = .ok (v, []) := h
    rw [h]
    exact yields_ok v
  | false =>
    obtain ⟨p, h⟩ := h
    rw [h]
    exact yields_error p v

theorem stops_nil : Stops [] := by simp [Stops]

theorem read_write {v : Value} (h : v.isDocument = true) :
    Yields (read .record (write v)) (v.fits .record 0) v := by
  have hvalue := yields_write (d := .record) rfl v h 0 (2 * (write v).length + 2) (by omega) []
    stops_nil
  rw [List.append_nil] at hvalue
  exact yields_read (opens_write h) hvalue

end Detection.Json
