import TestScaffold.Command.Session
import TestScaffold.Proofs.Workspace.Directory
/-!
# Work on a session

`Task.on` is what some work comes to in a session: its result and the session it leaves.
The steps that work is made of have their equations here, so that a whole piece of work can
be followed from one session to the next.

`Task.Keeps R` says that work relates the directory it finds to the one it leaves by `R`,
whether it succeeds or fails. It is put together along the work (`Keeps.bind`) for every
relation that is reflexive and transitive: equality for work that only reads, and
`Directory.GrowsInto` for work that writes. `Task.Leaves d` is about one directory: work that
would write elsewhere leaves `d` as it is, for the results that its pieces have in `d`.
-/

namespace TestScaffold.Task

variable {α β : Type}

/-- What some work comes to in a session: its result and the session behind it. -/
def on (work : Task α) (s : Session) : Except CommandError α × Session :=
  work.run.run s

/-! ## Steps -/

@[simp] theorem on_pure (a : α) (s : Session) : (pure a : Task α).on s = (.ok a, s) :=
  rfl

@[simp] theorem on_get (s : Session) : (get : Task Session).on s = (.ok s, s) :=
  rfl

/-- One piece of work behind another: it starts in the session that the first one leaves,
unless the first one fails. -/
theorem on_bind (work : Task α) (next : α → Task β) (s : Session) :
    (work >>= next).on s =
      match work.on s with
      | (.ok a, s) => (next a).on s
      | (.error error, s) => (.error error, s) := by
  unfold on
  simp only [ExceptT.run_bind, StateT.run_bind]
  generalize work.run.run s = outcome
  rcases outcome with ⟨_ | _, _⟩ <;> rfl

theorem on_bind_ok {work : Task α} {s s' : Session} {a : α} (h : work.on s = (.ok a, s'))
    (next : α → Task β) : (work >>= next).on s = (next a).on s' := by
  rw [on_bind, h]

theorem on_bind_error {work : Task α} {s s' : Session} {error : CommandError}
    (h : work.on s = (.error error, s')) (next : α → Task β) :
    (work >>= next).on s = (.error error, s') := by
  rw [on_bind, h]

/-- An error that is kept as a value is no error any more. -/
@[simp] theorem on_attempt (work : Task α) (s : Session) :
    (attempt work).on s = (.ok (work.on s).1, (work.on s).2) :=
  rfl

@[simp] theorem on_hasPath (path : String) (s : Session) :
    (hasPath path).on s = (.ok (s.directory.hasPath path), s) :=
  rfl

/-- Reading a text changes nothing. -/
theorem on_readText (task : FileTask) (path : String) (s : Session) :
    (readText task path).on s
      = ((s.directory.readText path).mapError (.file task path), s) := by
  rw [readText, on_bind_ok (on_get s)]
  cases s.directory.readText path <;> rfl

/-- Writing a text changes the directory or fails. -/
theorem on_writeText (task : FileTask) (path text : String) (s : Session) :
    (writeText task path text).on s =
      match s.directory.write path text with
      | .ok directory => (.ok (), { s with directory })
      | .error cause => (.error (.file task path cause), s) := by
  rw [writeText, on_bind_ok (on_get s)]
  cases s.directory.write path text <;> rfl

/-- A notice is given, or nothing happens. -/
theorem exists_on_notice (quiet : Bool) (text : String) (s : Session) :
    ∃ notices, (notice quiet text).on s = (.ok (), { s with notices }) := by
  cases quiet with
  | true => exact ⟨s.notices, rfl⟩
  | false => exact ⟨_, rfl⟩

/-! ## What work does to a directory -/

/-- **Some work relates the directory that it finds to the one that it leaves.** -/
def Keeps (R : Directory → Directory → Prop) (work : Task α) : Prop :=
  ∀ s, R s.directory (work.on s).2.directory

section

variable {R : Directory → Directory → Prop} {work : Task α}

/-- **Work made of two pieces** keeps what both of them keep. -/
theorem Keeps.bind (htrans : ∀ {a b c}, R a b → R b c → R a c) (h : Keeps R work)
    {next : α → Task β} (hnext : ∀ a, Keeps R (next a)) : Keeps R (work >>= next) := by
  intro s
  have hwork := h s
  rw [on_bind]
  generalize work.on s = outcome at hwork
  rcases outcome with ⟨_ | a, s'⟩
  · exact hwork
  · exact htrans hwork (hnext a s')

/-- Work that leaves the directory as it is keeps everything reflexive. -/
theorem Keeps.of_eq (h : Keeps Eq work) (hrefl : ∀ d, R d d) : Keeps R work :=
  fun s => h s ▸ hrefl s.directory

end

theorem keeps_notice (quiet : Bool) (text : String) : Keeps Eq (notice quiet text) := by
  intro s
  obtain ⟨notices, h⟩ := exists_on_notice quiet text s
  rw [h]

/-! ## Directories that work leaves as they are -/

/-- **Some work leaves a directory as it is**, which may be due to what is in it, and comes
to a result of some kind if it succeeds. -/
def Leaves (d : Directory) (work : Task α) (kind : α → Prop) : Prop :=
  ∀ s, s.directory = d →
    (work.on s).2.directory = d ∧ ∀ a, (work.on s).1 = .ok a → kind a

section

variable {d : Directory} {work : Task α} {kind : α → Prop}

theorem Keeps.leaves (h : Keeps Eq work) (d : Directory) : Leaves d work fun _ => True :=
  fun s hs => ⟨(h s).symm.trans hs, fun _ _ => trivial⟩

theorem leaves_pure (d : Directory) {a : α} (ha : kind a) : Leaves d (pure a) kind :=
  fun _ hs => ⟨hs, fun _ hb => Except.ok.inj hb ▸ ha⟩

/-- Work made of two pieces leaves a directory as it is when the first one does, and the
second one for every result of the first one. -/
theorem Leaves.bind (h : Leaves d work kind) {next : α → Task β} {last : β → Prop}
    (hnext : ∀ a, kind a → Leaves d (next a) last) : Leaves d (work >>= next) last := by
  intro s hs
  obtain ⟨hwork, hkind⟩ := h s hs
  rw [on_bind]
  generalize work.on s = outcome at hwork hkind
  rcases outcome with ⟨error | a, t⟩
  · exact ⟨hwork, fun _ hb => nomatch hb⟩
  · exact hnext a (hkind a rfl) t hwork

/-- An error that is kept as a value is left out of account. -/
theorem Leaves.attempt (h : Leaves d work kind) :
    Leaves d (attempt work) fun result => ∀ a, result = .ok a → kind a := by
  intro s hs
  obtain ⟨hwork, hkind⟩ := h s hs
  exact ⟨hwork, fun result hresult => Except.ok.inj hresult ▸ hkind⟩

end

end TestScaffold.Task
