import Detection.Files
import Detection.Proofs.Success

/-! # What writing to one file leaves as it is

A file is told apart from all others by its place. Adding to it changes neither the other files nor
the way along any path, as long as it is there already.
-/

namespace Detection.Files

/-- The bytes of the file in a place, if a file is there. -/
def fileAt? (f : Files) (place : List String) : Option (List UInt8) :=
  match f.entry? place with
  | some (.file bytes) => some bytes
  | _ => none

def placeOf (p : Path) : List String := p.parts.foldl next (base p)

variable {f g : Files} {place other : List String} {bytes : List UInt8}

theorem fileAt?_eq_some : f.fileAt? place = some bytes ↔ f.entry? place = some (.file bytes) := by
  unfold fileAt?
  split
  · rename_i heq
    simp [heq]
  · rename_i hne
    simp only [reduceCtorEq, false_iff]
    exact hne bytes

/-! ## Entries -/

/-- The working directory, those above it, and the one above all. -/
def isTop (place : List String) : Bool := isAbove place || decide (place = [rootName])

theorem entry?_eq (h : isTop place = false) :
    f.entry? place = (f.entries.lookup place).or
      (if f.entries.any (fun e => place.isPrefixOf e.1) then some .directory else none) := by
  simp only [isTop, Bool.or_eq_false_iff, decide_eq_false_iff_not] at h
  unfold entry?
  simp only [h.1, h.2]
  cases f.entries.lookup place <;> simp

theorem entry?_isTop (h : isTop place = true) : f.entry? place = some .directory := by
  rw [isTop, Bool.or_eq_true, decide_eq_true_eq] at h
  unfold entry?
  simp [h]

theorem lookup_of_file (h : f.entry? place = some (.file bytes)) :
    isTop place = false ∧ f.entries.lookup place = some (.file bytes) := by
  cases htop : isTop place with
  | true =>
    rw [entry?_isTop htop] at h
    cases h
  | false =>
    rw [entry?_eq htop] at h
    refine ⟨rfl, ?_⟩
    rcases Option.or_eq_some_iff.mp h with h | ⟨-, h⟩
    · exact h
    · split at h <;> cases h

theorem fileAt?_eq (h : isTop place = false) :
    f.fileAt? place = match f.entries.lookup place with
      | some (.file bytes) => some bytes
      | _ => none := by
  rw [fileAt?, entry?_eq h]
  cases hlookup : f.entries.lookup place with
  | some e => rfl
  | none =>
    rw [Option.none_or]
    split
    · rename_i heq
      split at heq <;> cases heq
    · rfl

theorem fileAt?_isTop (h : isTop place = true) : f.fileAt? place = none := by
  rw [fileAt?, entry?_isTop h]

/-! ## Writing -/

theorem lookup_map {l : List (List String × Entry)} {e : Entry} (other : List String) :
    (l.map fun a => if a.1 = place then (place, e) else a).lookup other =
      if other = place ∧ l.any (·.1 = place) then some e else l.lookup other := by
  induction l with
  | nil => simp
  | cons a l ih =>
    obtain ⟨name, entry⟩ := a
    rw [List.map_cons, List.lookup_cons]
    by_cases hother : other = name
    · subst hother
      by_cases hname : other = place
      · simp [hname]
      · simp [hname]
    · have hne : (other == name) = false := beq_eq_false_iff_ne.mpr hother
      by_cases hname : name = place
      · subst hname
        simp [List.lookup_cons, ih, hne, hother]
      · have hany : ((name, entry) :: l).any (·.1 = place) = l.any (·.1 = place) := by
          rw [List.any_cons, decide_eq_false hname, Bool.false_or]
        rw [hany, if_neg hname, List.lookup_cons, hne, ih]

theorem lookup_write (other : List String) :
    (f.write place bytes).entries.lookup other =
      if other = place then some (.file bytes) else f.entries.lookup other := by
  unfold write
  split
  · rename_i hany
    rw [lookup_map]
    simp only [hany, and_true]
  · rename_i hany
    have hnone : f.entries.lookup place = none := by
      rw [List.lookup_eq_none_iff]
      intro a ha
      rw [bne_iff_ne]
      rintro rfl
      exact hany (List.any_eq_true.mpr ⟨a, ha, decide_eq_true rfl⟩)
    rw [List.lookup_append]
    by_cases hother : other = place
    · subst hother
      simp [hnone]
    · have hne : (other == place) = false := beq_eq_false_iff_ne.mpr hother
      simp [List.lookup_cons, hother, hne]

theorem fileAt?_write (h : isTop place = false) (other : List String) :
    (f.write place bytes).fileAt? other =
      if other = place then some bytes else f.fileAt? other := by
  cases htop : isTop other with
  | true =>
    have hne : other ≠ place := by
      rintro rfl
      rw [htop] at h
      cases h
    rw [if_neg hne, fileAt?_isTop htop, fileAt?_isTop htop]
  | false =>
    rw [fileAt?_eq htop, fileAt?_eq htop, lookup_write]
    by_cases hother : other = place
    · rw [if_pos hother, if_pos hother]
    · rw [if_neg hother, if_neg hother]

theorem isTop_of_ne_directory (h : f.entry? place ≠ some .directory) : isTop place = false := by
  rw [← Bool.not_eq_true]
  exact fun htop => h (entry?_isTop htop)

theorem bytesAt_eq (h : f.entry? place ≠ some .directory) :
    f.bytesAt place = (f.fileAt? place).getD [] := by
  rw [fileAt?_eq (isTop_of_ne_directory h), bytesAt]
  cases f.entries.lookup place with
  | none => rfl
  | some e => cases e <;> rfl

theorem fileAt?_extend (h : f.entry? place ≠ some .directory) (other : List String) :
    (f.extend place bytes).fileAt? other =
      if other = place then some ((f.fileAt? place).getD [] ++ bytes) else f.fileAt? other := by
  rw [extend, fileAt?_write (isTop_of_ne_directory h), bytesAt_eq h]

theorem entry?_extend (hthere : f.fileAt? place ≠ none) (hother : other ≠ place) :
    Files.entry? (f.extend place bytes) other = f.entry? other := by
  obtain ⟨old, hold⟩ := Option.ne_none_iff_exists'.mp hthere
  obtain ⟨htop, hlookup⟩ := lookup_of_file (fileAt?_eq_some.mp hold)
  have hany : f.entries.any (·.1 = place) = true := by
    obtain ⟨before, after, hentries, -⟩ := List.lookup_eq_some_iff.mp hlookup
    simp [hentries]
  have hnames : (f.extend place bytes).entries.map Prod.fst = f.entries.map Prod.fst := by
    rw [extend, write, if_pos hany, List.map_map]
    apply List.map_congr_left
    intro a _
    by_cases ha : a.1 = place
    · simp [ha]
    · simp [ha]
  cases htop' : isTop other with
  | true => rw [entry?_isTop htop', entry?_isTop htop']
  | false =>
    have hprefix (h : Files) : h.entries.any (fun e => other.isPrefixOf e.1) =
        (h.entries.map Prod.fst).any (other.isPrefixOf ·) := by
      rw [List.any_map]
      rfl
    rw [entry?_eq htop', entry?_eq htop', hprefix, hprefix, hnames, extend, lookup_write,
      if_neg hother]

theorem fileAt?_makeDirectories {p : Path} (h : f.makeDirectories p = .ok g) (other : List String) :
    g.fileAt? other = f.fileAt? other := by
  have hadded (place : List String) :
      (⟨f.entries ++ [(place, .directory)]⟩ : Files).fileAt? other = f.fileAt? other := by
    cases htop : isTop other with
    | true => rw [fileAt?_isTop htop, fileAt?_isTop htop]
    | false =>
      rw [fileAt?_eq htop, fileAt?_eq htop, List.lookup_append]
      cases hlookup : f.entries.lookup other with
      | some e => rfl
      | none =>
        by_cases hother : other = place
        · simp [hother]
        · have hne : (other == place) = false := beq_eq_false_iff_ne.mpr hother
          simp [List.lookup_cons, hne]
  unfold makeDirectories at h
  split at h
  · cases h
    rfl
  · cases h
  · cases h
  · cases h
    exact hadded _
  · split at h
    · cases h
    · cases h
      exact hadded _

/-! ## Following a path -/

theorem find_eq {p : Path} (h : ∀ part ∈ p.parts, '\x00' ∉ part.toList) :
    f.find p = f.walk (base p) p.parts := by
  unfold find
  rw [if_neg]
  simpa using h

theorem walk_file {here parts : List String} (h : f.walk here parts = .file place bytes) :
    place = parts.foldl next here ∧ f.entry? place = some (.file bytes) := by
  induction parts generalizing here with
  | nil => cases h
  | cons part rest ih =>
    simp only [walk] at h
    split at h
    · exact ih h
    · rename_i hentry
      split at h
      · rename_i hrest
        cases h
        rw [List.isEmpty_iff.mp hrest]
        exact ⟨rfl, hentry⟩
      · cases h
    · split at h <;> cases h

theorem walk_free {here parts : List String} (h : f.walk here parts = .free place) :
    place = parts.foldl next here ∧ f.entry? place = none := by
  induction parts generalizing here with
  | nil => cases h
  | cons part rest ih =>
    simp only [walk] at h
    split at h
    · exact ih h
    · split at h <;> cases h
    · rename_i hentry
      split at h
      · rename_i hrest
        cases h
        rw [List.isEmpty_iff.mp hrest]
        exact ⟨rfl, hentry⟩
      · cases h

theorem placeToWrite_ok {path : String} (h : f.placeToWrite path = .ok place) :
    place = placeOf (.ofText path) ∧ f.entry? place ≠ some .directory := by
  -- by what is found there: a file, or a free place
  simp only [placeToWrite] at h
  split at h
  · cases h
  split at h
  · cases h
  split at h
  · rename_i hfind
    split at h
    · cases h
    cases h
    unfold find at hfind
    split at hfind
    · cases hfind
    obtain ⟨hplace, hentry⟩ := walk_file hfind
    exact ⟨hplace, by simp [hentry]⟩
  · cases h
  · rename_i hfind
    split at h
    · cases h
    split at h
    · cases h
    cases h
    unfold find at hfind
    split at hfind
    · cases hfind
    obtain ⟨hplace, hentry⟩ := walk_free hfind
    exact ⟨hplace, by simp [hentry]⟩
  · cases h
  · cases h

/-! ## Files that differ in one place -/

/-- The place, if there is one, holds a file. -/
def HasLog (log? : Option (List String)) (f : Files) : Prop :=
  ∀ place, log? = some place → f.fileAt? place ≠ none

/-- The files are the same in every other place than this one, where both have a file. -/
structure SameBut (log? : Option (List String)) (f g : Files) : Prop where
  others : ∀ place, log? ≠ some place → g.entry? place = f.entry? place
  before : HasLog log? f
  after : HasLog log? g

section SameBut

variable {log? : Option (List String)}

theorem SameBut.refl (h : HasLog log? f) : SameBut log? f f := ⟨fun _ _ => rfl, h, h⟩

theorem SameBut.trans {e : Files} (h : SameBut log? e f) (h' : SameBut log? f g) :
    SameBut log? e g :=
  ⟨fun place hplace => (h'.others place hplace).trans (h.others place hplace), h.before, h'.after⟩

theorem sameBut_extend (h : HasLog (some place) f) (bytes : List UInt8) :
    SameBut (some place) f (f.extend place bytes) := by
  have hthere := h place rfl
  have hfile : f.entry? place ≠ some .directory := by
    intro hdirectory
    simp [fileAt?, hdirectory] at hthere
  refine ⟨fun other hother => entry?_extend hthere fun heq => hother (by rw [heq]), h, ?_⟩
  rintro _ ⟨⟩
  simp [fileAt?_extend hfile]

theorem SameBut.fileAt? (h : SameBut log? f g) (hplace : log? ≠ some place) :
    g.fileAt? place = f.fileAt? place := by
  simp only [Files.fileAt?, h.others place hplace]

theorem SameBut.walk (h : SameBut log? f g) {here parts : List String}
    (hplace : log? ≠ some (parts.foldl next here)) : g.walk here parts = f.walk here parts := by
  induction parts generalizing here with
  | nil => rfl
  | cons part rest ih =>
    simp only [Files.walk]
    by_cases hlog : log? = some (next here part)
    · -- the way ends at the file, in both
      obtain ⟨old, hold⟩ := Option.ne_none_iff_exists'.mp (h.before _ hlog)
      obtain ⟨new, hnew⟩ := Option.ne_none_iff_exists'.mp (h.after _ hlog)
      rw [fileAt?_eq_some.mp hold, fileAt?_eq_some.mp hnew]
      cases rest with
      | nil => exact absurd hlog hplace
      | cons => rfl
    · rw [h.others _ hlog]
      cases f.entry? (next here part) with
      | none => rfl
      | some e =>
        cases e with
        | file bytes => rfl
        | directory => exact ih hplace

variable {p : Path}

theorem SameBut.find (h : SameBut log? f g) (hplace : log? ≠ some (placeOf p)) :
    g.find p = f.find p := by
  simp only [Files.find, h.walk hplace]

theorem SameBut.isThere (h : SameBut log? f g) (hplace : log? ≠ some (placeOf p)) :
    g.isThere p = f.isThere p := by
  simp only [Files.isThere, h.find hplace]

theorem SameBut.readText (h : SameBut log? f g) (hplace : log? ≠ some (placeOf p)) :
    g.readText p = f.readText p := by
  simp only [Files.readText, h.find hplace]

theorem SameBut.placeToWrite (h : SameBut log? f g) {path : String}
    (hplace : log? ≠ some (placeOf (.ofText path))) :
    g.placeToWrite path = f.placeToWrite path := by
  simp only [Files.placeToWrite, h.find hplace]

end SameBut

end Detection.Files
