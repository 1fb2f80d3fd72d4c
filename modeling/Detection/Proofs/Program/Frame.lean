import Detection.Program
import Detection.Proofs.Files.Frame

/-! # Steps that only note and report

Most steps of a run touch the log and what is reported, and nothing else. What such a step ends with
can then depend only on the machine and on files other than the log.
-/

namespace Detection

namespace Session

def Open (s : Session) : Prop := Files.HasLog s.log.file? s.files

/-- From the one to the other, just the log and what is reported have changed. -/
structure Calm (s s' : Session) : Prop where
  machine : s'.machine = s.machine
  out : s'.out = s.out
  file? : s'.log.file? = s.log.file?
  files : s.files.SameBut s.log.file? s'.files

variable {s s' s'' : Session}

theorem Calm.refl (h : s.Open) : s.Calm s := ⟨rfl, rfl, rfl, .refl h⟩

theorem Calm.open (h : s.Calm s') : s'.Open := by
  unfold Open
  rw [h.file?]
  exact h.files.after

theorem Calm.trans (h : s.Calm s') (h' : s'.Calm s'') : s.Calm s'' := by
  have hfiles := h'.files
  rw [h.file?] at hfiles
  exact ⟨h'.machine.trans h.machine, h'.out.trans h.out, h'.file?.trans h.file?,
    h.files.trans hfiles⟩

end Session

namespace Run

variable {α β : Type} {s s' : Session} {x : Run α} {f : α → Run β} {a : α} {e : Failure}

/-- How a step ends that starts here. -/
def outcome (x : Run α) (s : Session) : Except Failure α × Session := x.run s

theorem outcome_pure : (pure a : Run α).outcome s = (.ok a, s) := rfl

theorem outcome_throw : (throw e : Run α).outcome s = (.error e, s) := rfl

theorem outcome_get : (get : Run Session).outcome s = (.ok s, s) := rfl

theorem outcome_modify (g : Session → Session) :
    (modify g : Run Unit).outcome s = (.ok (), g s) := rfl

theorem outcome_bind :
    (x >>= f).outcome s = match x.outcome s with
      | (.ok a, s') => (f a).outcome s'
      | (.error e, s') => (.error e, s') := by
  have hbind : (x >>= f).outcome s = ExceptT.bindCont f (x.outcome s).1 (x.outcome s).2 := rfl
  rw [hbind]
  obtain ⟨r, s'⟩ := x.outcome s
  cases r <;> rfl

theorem outcome_tryCatch {h : Failure → Run α} :
    (tryCatch x h).outcome s = match x.outcome s with
      | (.ok a, s') => (.ok a, s')
      | (.error e, s') => (h e).outcome s' := by
  simp only [outcome, tryCatch, tryCatchThe, MonadExceptOf.tryCatch, ExceptT.tryCatch, ExceptT.run,
    ExceptT.mk, bind, StateT.bind]
  generalize (x s : Except Failure α × Session) = o
  obtain ⟨r, s'⟩ := o
  cases r <;> rfl

/-! ## Steps that change the log and what is reported -/

/-- From here the step ends like this, and notes and reports at most. -/
structure Gives (x : Run α) (s : Session) (r : Except Failure α) : Prop where
  result : (x.outcome s).1 = r
  calm : s.Calm (x.outcome s).2

theorem Gives.outcome_eq {r : Except Failure α} (h : Gives x s r) :
    x.outcome s = (r, (x.outcome s).2) := by rw [← h.result]

theorem Gives.exists_outcome {r : Except Failure α} (h : Gives x s r) :
    ∃ s', x.outcome s = (r, s') ∧ s.Calm s' :=
  ⟨_, h.outcome_eq, h.calm⟩

theorem gives_of_outcome {r : Except Failure α} (h : x.outcome s = (r, s')) (hcalm : s.Calm s') :
    Gives x s r :=
  ⟨by rw [h], by rw [h]; exact hcalm⟩

variable {r : Except Failure β}

theorem gives_pure (hopen : s.Open) : Gives (pure a) s (.ok a) :=
  gives_of_outcome outcome_pure (.refl hopen)

theorem gives_throw (hopen : s.Open) : Gives (throw e : Run α) s (.error e) :=
  gives_of_outcome outcome_throw (.refl hopen)

theorem gives_ofExcept {ε : Type} (hopen : s.Open) (failure : ε → Failure) (r : Except ε α) :
    Gives (ofExcept failure r) s (r.mapError failure) := by
  cases r with
  | ok a => exact gives_pure hopen
  | error e => exact gives_throw hopen

theorem Gives.bind_exists {P : Except Failure β → Prop} (h : Gives x s (.ok a))
    (hf : ∀ s', s.Calm s' → ∃ r, P r ∧ Gives (f a) s' r) : ∃ r, P r ∧ Gives (x >>= f) s r := by
  obtain ⟨s', hx, hcalm⟩ := h.exists_outcome
  obtain ⟨r, hr, hrest⟩ := hf s' hcalm
  obtain ⟨s'', hfa, hcalm'⟩ := hrest.exists_outcome
  refine ⟨r, hr, gives_of_outcome ?_ (hcalm.trans hcalm')⟩
  rw [outcome_bind, hx]
  exact hfa

theorem Gives.bind (h : Gives x s (.ok a)) (hf : ∀ s', s.Calm s' → Gives (f a) s' r) :
    Gives (x >>= f) s r := by
  obtain ⟨_, rfl, hbind⟩ := h.bind_exists (P := (· = r)) fun s' hcalm => ⟨r, rfl, hf s' hcalm⟩
  exact hbind

theorem Gives.exists_bind (h : Gives x s (.ok a)) :
    ∃ s', s.Calm s' ∧ (x >>= f).outcome s = (f a).outcome s' :=
  ⟨_, h.calm, by rw [outcome_bind, h.outcome_eq]⟩

theorem Gives.bind_error (h : Gives x s (.error e)) : Gives (x >>= f) s (.error e) := by
  refine gives_of_outcome ?_ h.calm
  rw [outcome_bind, h.outcome_eq]

theorem Gives.bind_except {c : Except Failure α} {g : α → Except Failure β} (h : Gives x s c)
    (hf : ∀ a s', s.Calm s' → Gives (f a) s' (g a)) : Gives (x >>= f) s (c >>= g) := by
  cases c with
  | ok a => exact h.bind (hf a)
  | error e => exact h.bind_error

theorem gives_get {f : Session → Run β} (h : Gives (f s) s r) : Gives (get >>= f) s r := by
  have hbind : ((get : Run Session) >>= f).outcome s = (f s).outcome s := by
    rw [outcome_bind, outcome_get]
  exact ⟨by rw [hbind]; exact h.result, by rw [hbind]; exact h.calm⟩

theorem gives_put_err (hopen : s.Open) (text : String) : Gives (put .err text) s (.ok ()) :=
  gives_of_outcome (outcome_modify _) ⟨rfl, rfl, rfl, .refl hopen⟩

theorem gives_setLeast (hopen : s.Open) (n : Nat) : Gives (setLeast n) s (.ok ()) :=
  gives_of_outcome (outcome_modify _) ⟨rfl, rfl, rfl, .refl hopen⟩

theorem gives_extend_log (hopen : s.Open) {place : List String} (hplace : s.log.file? = some place)
    (text : String) : Gives (extend place text) s (.ok ()) := by
  refine gives_of_outcome (outcome_modify _) ⟨rfl, rfl, rfl, ?_⟩
  rw [Session.Open, hplace] at hopen
  rw [hplace]
  exact Files.sameBut_extend hopen _

theorem outcome_extend (hopen : s.Open) {place : List String} (hplace : s.log.file? ≠ some place)
    (hfile : s.files.entry? place ≠ some .directory) (text : String) :
    ∃ s', (extend place text).outcome s = (.ok (), s') ∧ s'.Open ∧ s'.log = s.log ∧
      s'.out = s.out ∧ s'.files = s.files.extend place (Utf8.encode text) := by
  refine ⟨_, outcome_modify _, fun log hlog => ?_, rfl, rfl, rfl⟩
  have hne : log ≠ place := by
    rintro rfl
    exact hplace hlog
  rw [Files.fileAt?_extend hfile, if_neg hne]
  exact hopen log hlog

/-- A line goes to the file of a log that has one. -/
def toFile (log : Log) (line : String) : Run Unit :=
  match log.file? with
  | some place => extend place line
  | none => pure ()

theorem write_eq (line : String) :
    write line = get >>= fun s : Session =>
      if s.log.console then put .err line >>= fun _ => toFile s.log line
      else toFile s.log line := rfl

theorem gives_write (hopen : s.Open) (line : String) : Gives (write line) s (.ok ()) := by
  have hfile : ∀ s', s.Calm s' → Gives (toFile s.log line) s' (.ok ()) := by
    intro s' hcalm
    rw [toFile, ← hcalm.file?]
    split
    · exact gives_extend_log hcalm.open ‹_› line
    · exact gives_pure hcalm.open
  rw [write_eq]
  apply gives_get
  split
  · exact (gives_put_err hopen line).bind hfile
  · exact hfile s (.refl hopen)

theorem gives_noteWith (hopen : s.Open) (after : String) (n : Note) :
    Gives (noteWith after n) s (.ok ()) := by
  unfold noteWith
  apply gives_get
  split
  · split
    · exact gives_write hopen _
    · split
      · exact gives_put_err hopen _
      · exact gives_pure hopen
  · exact gives_pure hopen

theorem gives_note (hopen : s.Open) (weight : Weight) (text : String) :
    Gives (note weight text) s (.ok ()) :=
  gives_noteWith hopen "" _

theorem gives_noteTraced (hopen : s.Open) (text : String) :
    Gives (noteTraced text) s (.ok ()) := by
  unfold noteTraced
  apply gives_get
  exact gives_noteWith hopen _ _

theorem gives_forIn {γ : Type} {xs : List γ} {body : γ → Run Unit} (hopen : s.Open)
    (hbody : ∀ x ∈ xs, ∀ s' : Session, s'.Open → Gives (body x) s' (.ok ())) :
    Gives (forIn xs PUnit.unit fun x _ => do
      body x
      pure (ForInStep.yield PUnit.unit)) s (.ok ()) := by
  induction xs generalizing s with
  | nil => exact gives_pure hopen
  | cons x xs ih =>
    obtain ⟨hx, hxs⟩ := List.forall_mem_cons.mp hbody
    rw [List.forIn_cons]
    refine Gives.bind (a := .yield ()) ((hx s hopen).bind fun s' hcalm => gives_pure hcalm.open)
      fun s' hcalm => ?_
    exact ih hcalm.open hxs

/-! ## Printing -/

end Run

/-- What is printed of a line: all of it on a terminal, and the text without its codes elsewhere. -/
def Machine.shown? (m : Machine) (line : String) : Option String :=
  if m.isTerminal then some line else Terminal.plain? line

namespace Run

variable {s : Session}

theorem outcome_print (stream : Stream) (line : String) :
    (print stream line).outcome s = match s.machine.shown? line with
      | some text => (put stream (text ++ "\n")).outcome s
      | none => (.error .title, s) := by
  unfold print Machine.shown?
  rw [outcome_bind, outcome_get]
  simp only
  split
  · rfl
  · cases Terminal.plain? line <;> rfl

theorem gives_print_err (hopen : s.Open) (line : String) : Gives (print .err line) s
    (if (s.machine.shown? line).isSome then .ok () else .error .title) := by
  have hprint := outcome_print (s := s) .err line
  cases hshown : s.machine.shown? line with
  | some text =>
    rw [hshown] at hprint
    have hput := gives_put_err hopen (text ++ "\n")
    exact ⟨by rw [hprint]; exact hput.result, by rw [hprint]; exact hput.calm⟩
  | none =>
    rw [hshown] at hprint
    exact gives_of_outcome hprint (.refl hopen)

/-- The values up to the first that is missing. -/
def upToMissing {α : Type} : List (Option α) → List α
  | some x :: xs => x :: upToMissing xs
  | _ => []

def joined (lines : List String) : String := String.join (lines.map (· ++ "\n"))

theorem joined_cons (line : String) (lines : List String) :
    joined (line :: lines) = line ++ "\n" ++ joined lines := by
  simp [joined, String.join_cons]

theorem outcome_printAll (lines : List String) :
    (forIn lines PUnit.unit fun line _ => do
        print .out line
        pure (ForInStep.yield PUnit.unit) : Run PUnit).outcome s =
      (if (lines.map s.machine.shown?).all Option.isSome then .ok () else .error .title,
        { s with out := s.out ++ joined (upToMissing (lines.map s.machine.shown?)) }) := by
  induction lines generalizing s with
  | nil => simp [joined, upToMissing, outcome_pure]
  | cons line lines ih =>
    rw [List.forIn_cons, outcome_bind, outcome_bind, outcome_print, List.map_cons, List.all_cons]
    cases hshown : s.machine.shown? line with
    | none => simp [joined, upToMissing]
    | some text =>
      simp only [put, outcome_modify, outcome_pure]
      rw [ih, upToMissing, joined_cons, Option.isSome_some, Bool.true_and, String.append_assoc]

end Run

end Detection
