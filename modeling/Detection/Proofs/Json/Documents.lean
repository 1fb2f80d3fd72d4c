import Detection.Mapping
import Detection.Proofs.Excess
import Detection.Proofs.Json.Strings

/-! # Values that documents hold

Objects have strings for keys, none of them twice. How deep a value may be, how long a number and
which strings are text is up to the reader.
-/

namespace Detection

def Json.Dialect.allows (d : Dialect) (depth : Nat) : Bool := !d.maxDepth.any (· < depth)

theorem Json.Dialect.allows_record {depth : Nat} (h : depth ≤ 200) :
    Json.Dialect.record.allows depth = true := by
  simp [allows, record, Nat.not_lt.mpr h]

theorem Json.Dialect.overlong?_of_isShort (d : Dialect) {n : Int} (h : Excess.isShort n = true) :
    d.overlong? (.int n) = none := by
  simp [overlong?, h, Excess.isLong_of_isShort h]

@[simp] theorem Json.Dialect.overlong?_text (d : Dialect) (s : String) :
    d.overlong? (.text s) = none := rfl

@[simp] theorem Json.Dialect.overlong?_real (d : Dialect) (x : Binary64) :
    d.overlong? (.real x) = none := rfl

namespace Value

def isText : Value → Bool
  | .text _ => true
  | _ => false

/-- Text, or code points of which a surrogate stands alone. -/
def isString : Value → Bool
  | .text _ => true
  | .broken points =>
    points.any Json.isSurrogate && points.all (· < 0x110000) && decide (Json.Unpaired points)
  | _ => false

mutual

/-- A value as a document holds it: an object has strings for keys, none of them twice. -/
def isDocument : Value → Bool
  | .none | .flag _ | .int _ | .real _ | .text _ => true
  | .broken points => isString (.broken points)
  | .list items => areDocuments items
  | .dict entries => haveDocuments entries
  | _ => false

def areDocuments : List Value → Bool
  | [] => true
  | v :: vs => isDocument v && areDocuments vs

def haveDocuments : Mapping → Bool
  | [] => true
  | (key, v) :: es =>
    isString key && es.all (fun e => !Mapping.sameKey key e.1) && isDocument v && haveDocuments es

end

mutual

/-- Whether a reader goes this deep into a value, and finds just text for strings and no number that
is too long for it. -/
def fits (d : Json.Dialect) (depth : Nat) : Value → Bool
  | .broken _ => false
  | .list items => d.allows depth && fitAll d (depth + 1) items
  | .dict entries => d.allows depth && fitEntries d (depth + 1) entries
  | v => d.allows depth && (d.overlong? v).isNone

def fitAll (d : Json.Dialect) (depth : Nat) : List Value → Bool
  | [] => true
  | v :: vs => fits d depth v && fitAll d depth vs

def fitEntries (d : Json.Dialect) (depth : Nat) : Mapping → Bool
  | [] => true
  | (key, v) :: es => key.isText && fits d depth v && fitEntries d depth es

end

mutual

/-- A value of the kinds that documents are made of: objects have strings for keys. -/
def isPlain : Value → Bool
  | .none | .flag _ | .int _ | .real _ | .text _ | .broken _ => true
  | .list items => isPlainAll items
  | .dict entries => isPlainEntries entries
  | _ => false

def isPlainAll : List Value → Bool
  | [] => true
  | v :: vs => isPlain v && isPlainAll vs

def isPlainEntries : Mapping → Bool
  | [] => true
  | (key, v) :: es => (key matches .text _ | .broken _) && isPlain v && isPlainEntries es

end

mutual

theorem isPlain_of_isDocument : ∀ v : Value, v.isDocument = true → v.isPlain = true
  | .none, _ | .flag _, _ | .int _, _ | .real _, _ | .text _, _ | .broken _, _ => rfl
  | .list items, h => isPlainAll_of_areDocuments items h
  | .dict entries, h => isPlainEntries_of_haveDocuments entries h

theorem isPlainAll_of_areDocuments :
    ∀ vs : List Value, areDocuments vs = true → isPlainAll vs = true
  | [], _ => rfl
  | v :: vs, h => by
    rw [areDocuments, Bool.and_eq_true] at h
    rw [isPlainAll, isPlain_of_isDocument v h.1, isPlainAll_of_areDocuments vs h.2, Bool.and_self]

theorem isPlainEntries_of_haveDocuments :
    ∀ es : Mapping, haveDocuments es = true → isPlainEntries es = true
  | [], _ => rfl
  | (key, v) :: es, h => by
    simp only [haveDocuments, Bool.and_eq_true] at h
    obtain ⟨⟨⟨hkey, -⟩, hv⟩, hes⟩ := h
    have hplain := isPlain_of_isDocument v hv
    have hrest := isPlainEntries_of_haveDocuments es hes
    cases key with
    | text | broken => simp [isPlainEntries, hplain, hrest]
    | _ => cases hkey

end

/-! ## Entry by entry -/

theorem isPlainEntries_iff {es : Mapping} : isPlainEntries es = true ↔
    ∀ e ∈ es, (e.1 matches .text _ | .broken _) = true ∧ e.2.isPlain = true := by
  induction es with
  | nil => simp [isPlainEntries]
  | cons e es ih =>
    obtain ⟨key, v⟩ := e
    rw [List.forall_mem_cons, ← ih]
    cases key <;> simp [isPlainEntries]

theorem haveDocuments_iff {es : Mapping} : haveDocuments es = true ↔
    (∀ e ∈ es, e.1.isString = true ∧ e.2.isDocument = true) ∧
      es.Pairwise fun e e' => Mapping.sameKey e.1 e'.1 = false := by
  induction es with
  | nil => simp [haveDocuments]
  | cons e es ih =>
    obtain ⟨key, v⟩ := e
    simp only [haveDocuments, Bool.and_eq_true, List.all_eq_true, Bool.not_eq_true', ih,
      List.forall_mem_cons, List.pairwise_cons]
    grind

theorem isPlain_of_mem {es : Mapping} (h : isPlainEntries es = true) {e : Value × Value}
    (he : e ∈ es) : e.2.isPlain = true :=
  (isPlainEntries_iff.mp h e he).2

theorem isDocument_of_mem {es : Mapping} (h : haveDocuments es = true) {e : Value × Value}
    (he : e ∈ es) : e.2.isDocument = true :=
  ((haveDocuments_iff.mp h).1 e he).2

theorem isDocument_of_get? {es : Mapping} (h : (Value.dict es).isDocument = true) {key v : Value}
    (hv : es.get? key = some v) : v.isDocument = true := by
  obtain ⟨e, he, rfl⟩ := Option.map_eq_some_iff.mp hv
  exact isDocument_of_mem h (List.mem_of_find?_eq_some he)

theorem areDocuments_iff {vs : List Value} :
    areDocuments vs = true ↔ ∀ v ∈ vs, v.isDocument = true := by
  induction vs with
  | nil => simp [areDocuments]
  | cons v vs ih => simp [areDocuments, ih]

theorem fitAll_eq_all (d : Json.Dialect) (depth : Nat) (vs : List Value) :
    fitAll d depth vs = vs.all (fits d depth) := by
  induction vs with
  | nil => rfl
  | cons v vs ih => rw [fitAll, ih, List.all_cons]

theorem fitEntries_iff {d : Json.Dialect} {depth : Nat} {es : Mapping} :
    fitEntries d depth es = true ↔
      ∀ e ∈ es, e.1.isText = true ∧ e.2.fits d depth = true := by
  induction es with
  | nil => simp [fitEntries]
  | cons e es ih =>
    obtain ⟨key, v⟩ := e
    rw [fitEntries, Bool.and_eq_true, Bool.and_eq_true, ih, List.forall_mem_cons]

/-! ## What fits, and its parts -/

section

variable (d : Json.Dialect) (depth : Nat)

@[simp] theorem fits_none : Value.none.fits d depth = d.allows depth := Bool.and_true _

@[simp] theorem fits_flag (b : Bool) : (Value.flag b).fits d depth = d.allows depth :=
  Bool.and_true _

@[simp] theorem fits_real (x : Binary64) : (Value.real x).fits d depth = d.allows depth :=
  Bool.and_true _

@[simp] theorem fits_text (s : String) : (Value.text s).fits d depth = d.allows depth :=
  Bool.and_true _

theorem fits_of_isShort {n : Int} (h : Excess.isShort n = true) :
    (Value.int n).fits d depth = d.allows depth := by
  change (d.allows depth && (d.overlong? (.int n)).isNone) = _
  rw [d.overlong?_of_isShort h]
  exact Bool.and_true _

end

variable {d : Json.Dialect} {depth : Nat}

theorem isShort_of_fits {n : Int} (h : (Value.int n).fits .record depth = true) :
    Excess.isShort n = true := by
  obtain ⟨-, hlength⟩ := Bool.and_eq_true_iff.mp h
  by_contra hlong
  simp [Json.Dialect.overlong?, Json.Dialect.record, hlong] at hlength

theorem fits_of_mem_list {vs : List Value} (h : (Value.list vs).fits d depth = true) {v : Value}
    (hv : v ∈ vs) : v.fits d (depth + 1) = true := by
  obtain ⟨-, hall⟩ := Bool.and_eq_true_iff.mp h
  rw [fitAll_eq_all] at hall
  exact List.all_eq_true.mp hall v hv

theorem fits_of_get? {es : Mapping} (h : (Value.dict es).fits d depth = true) {key v : Value}
    (hv : es.get? key = some v) : v.fits d (depth + 1) = true := by
  obtain ⟨-, hall⟩ := Bool.and_eq_true_iff.mp h
  obtain ⟨e, he, rfl⟩ := Option.map_eq_some_iff.mp hv
  exact (fitEntries_iff.mp hall e (List.mem_of_find?_eq_some he)).2

mutual

theorem excess?_of_fits (toll : Excess.Toll) : ∀ (v : Value) (depth : Nat), v.isPlain = true →
    v.fits .record depth = true → v.excess? toll Option.none = Option.none
  | .none, _, _, _ | .flag _, _, _, _ | .real _, _, _, _ | .text _, _, _, _
  | .broken _, _, _, _ => rfl
  | .int n, _, _, h => by rw [excess?, Excess.isLong_of_isShort (isShort_of_fits h)]; rfl
  | .list items, depth, hplain, h =>
    excessAmong?_of_fits toll items (depth + 1) hplain (Bool.and_eq_true_iff.mp h).2
  | .dict entries, depth, hplain, h =>
    excessInside?_of_fits toll entries (depth + 1) hplain (Bool.and_eq_true_iff.mp h).2

theorem excessAmong?_of_fits (toll : Excess.Toll) : ∀ (vs : List Value) (depth : Nat),
    isPlainAll vs = true → fitAll .record depth vs = true →
      excessAmong? toll Option.none vs = Option.none
  | [], _, _, _ => rfl
  | v :: vs, depth, hplain, h => by
    rw [isPlainAll, Bool.and_eq_true] at hplain
    rw [fitAll, Bool.and_eq_true] at h
    rw [excessAmong?, excess?_of_fits toll v depth hplain.1 h.1,
      excessAmong?_of_fits toll vs depth hplain.2 h.2]
    rfl

theorem excessInside?_of_fits (toll : Excess.Toll) : ∀ (es : Mapping) (depth : Nat),
    isPlainEntries es = true → fitEntries .record depth es = true →
      excessInside? toll Option.none es = Option.none
  | [], _, _, _ => rfl
  | (key, v) :: es, depth, hplain, h => by
    simp only [isPlainEntries, Bool.and_eq_true] at hplain
    simp only [fitEntries, Bool.and_eq_true] at h
    have hkey : key.excess? toll Option.none = Option.none := by
      cases key <;> first | rfl | cases h.1.1
    rw [excessInside?, hkey, excess?_of_fits toll v depth hplain.1.2 h.1.2,
      excessInside?_of_fits toll es depth hplain.2 h.2]
    rfl

end

end Value

/-! ## Putting entries -/

theorem Mapping.key_of_mem_put {m : Mapping} {key v : Value} {e : Value × Value}
    (h : e ∈ m.put key v) : e.1 = key ∨ ∃ e' ∈ m, e'.1 = e.1 := by
  induction m with
  | nil => exact .inl (congrArg Prod.fst (List.mem_singleton.mp h))
  | cons e' es ih =>
    rw [put] at h
    split at h
    · rcases List.mem_cons.mp h with rfl | h
      · exact .inr ⟨e', List.mem_cons_self, rfl⟩
      · exact .inr ⟨e, List.mem_cons_of_mem _ h, rfl⟩
    · rcases List.mem_cons.mp h with rfl | h
      · exact .inr ⟨e, List.mem_cons_self, rfl⟩
      · rcases ih h with heq | ⟨e'', hmem, heq⟩
        · exact .inl heq
        · exact .inr ⟨e'', List.mem_cons_of_mem _ hmem, heq⟩

theorem Mapping.fresh_put {m : Mapping} {key other v : Value}
    (hother : ∀ e ∈ m, sameKey other e.1 = false) (hkey : sameKey other key = false) :
    ∀ e ∈ m.put key v, sameKey other e.1 = false := by
  intro e he
  rcases key_of_mem_put he with heq | ⟨e', he', heq⟩
  · rw [heq]
    exact hkey
  · rw [← heq]
    exact hother e' he'

theorem Value.haveDocuments_put {m : Mapping} (h : haveDocuments m = true) {key v : Value}
    (hkey : key.isString = true) (hv : v.isDocument = true) :
    haveDocuments (m.put key v) = true := by
  induction m with
  | nil => simp [Mapping.put, haveDocuments, hkey, hv]
  | cons e es ih =>
    obtain ⟨key', x⟩ := e
    rw [Mapping.put]
    simp only [haveDocuments, Bool.and_eq_true, List.all_eq_true, Bool.not_eq_true'] at h
    obtain ⟨⟨⟨hkey', hfresh⟩, hx⟩, hes⟩ := h
    split
    · simp only [haveDocuments, Bool.and_eq_true, List.all_eq_true, Bool.not_eq_true']
      exact ⟨⟨⟨hkey', hfresh⟩, hv⟩, hes⟩
    · rename_i hne
      simp only [haveDocuments, Bool.and_eq_true, List.all_eq_true, Bool.not_eq_true']
      exact ⟨⟨⟨hkey', Mapping.fresh_put hfresh (Bool.eq_false_iff.mpr hne)⟩, hx⟩, ih hes⟩

theorem Mapping.forall_mem_put {P : Value × Value → Prop} {m : Mapping} {key v : Value}
    (h : ∀ e ∈ m, P e) (hkept : ∀ e, P e → P (e.1, v)) (hnew : P (key, v)) :
    ∀ e ∈ m.put key v, P e := by
  induction m with
  | nil => exact List.forall_mem_singleton.mpr hnew
  | cons e es ih =>
    obtain ⟨he, hes⟩ := List.forall_mem_cons.mp h
    rw [put]
    split
    · exact List.forall_mem_cons.mpr ⟨hkept e he, hes⟩
    · exact List.forall_mem_cons.mpr ⟨he, ih hes⟩

theorem Value.fitEntries_put {d : Json.Dialect} {depth : Nat} {m : Mapping}
    (h : fitEntries d depth m = true) {key v : Value} (hkey : key.isText = true)
    (hv : v.fits d depth = true) : fitEntries d depth (m.put key v) = true := by
  rw [fitEntries_iff] at h ⊢
  exact Mapping.forall_mem_put h (fun e he => ⟨he.1, hv⟩) ⟨hkey, hv⟩

theorem Value.isPlainEntries_put {m : Mapping} (h : isPlainEntries m = true) {name : String}
    {v : Value} (hv : v.isPlain = true) : isPlainEntries (m.put (.text name) v) = true := by
  rw [isPlainEntries_iff] at h ⊢
  exact Mapping.forall_mem_put h (fun e he => ⟨he.1, hv⟩) ⟨rfl, hv⟩

end Detection
