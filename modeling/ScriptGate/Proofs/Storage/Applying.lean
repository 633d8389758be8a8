import ScriptGate.Proofs.Storage.Ledger

/-!
# What applying a write is

A writer without a connection opens its file, which `Files.Opens` tells when it can. On the
connection that it has then it executes the statement on what is committed in the file, and what
comes of that is all that changes: `Store.Writes` says so of a store.
-/

namespace ScriptGate.Storage

namespace Files

variable {fs : Files} {place other : Place}

theorem find?_set (fs : Files) (place other : Place) (d : Sql.Database) :
    (fs.set place d).find? other = if other = place then some d else fs.find? other := by
  unfold set find?
  rw [Pool.lookup_cons_eq]
  by_cases same : other = place
  · rw [if_pos same, if_pos same]
  · rw [if_neg same, if_neg same]
    induction fs.databases with
    | nil => rfl
    | cons e rest ih =>
      obtain ⟨k, old⟩ := e
      by_cases head : k = place
      · rw [List.filter_cons_of_neg (by simp [head]), ih, Pool.lookup_cons_eq, head, if_neg same]
      · rw [List.filter_cons_of_pos (by simp [head]), Pool.lookup_cons_eq, Pool.lookup_cons_eq, ih]

/-- What is committed in a file; nothing where there is no file. -/
def committed (fs : Files) (place : Place) : Sql.Database := (fs.find? place).getD {}

theorem committed_set (fs : Files) (place other : Place) (d : Sql.Database) :
    (fs.set place d).committed other = if other = place then d else fs.committed other := by
  rw [committed, find?_set]
  split <;> rfl

/-- What is committed stays, and the files stay. -/
structure Keeps (fs made : Files) : Prop where
  committed : ∀ other, made.committed other = fs.committed other
  there : ∀ other, (fs.find? other).isSome → (made.find? other).isSome

theorem find?_of_databases {made : Files} (same : made.databases = fs.databases) (other : Place) :
    made.find? other = fs.find? other := by
  rw [find?, same, find?]

theorem keeps_of_databases {made : Files} (same : made.databases = fs.databases) :
    fs.Keeps made := by
  have found := find?_of_databases same
  exact ⟨fun other => by rw [committed, found, committed], fun other there => by rwa [found]⟩

/-! ### Opening a file -/

/-- The file at a place can be opened: its path has names that a file system takes, it is no
directory, and no file stands where a directory above it would have to be. -/
structure Opens (fs : Files) (place : Place) : Prop where
  named : place ≠ []
  names : ∀ name ∈ place, isName name = true
  free : place ∉ fs.directories
  above : ∀ d, d <+: place → d ≠ [] → d ≠ place → fs.find? d = none

theorem databases_makeDirectories (fs : Files) (above : Place) (names : List String) :
    (fs.makeDirectories above names).1.databases = fs.databases := by
  induction names generalizing fs above with
  | nil => rfl
  | cons name names ih =>
    simp only [makeDirectories]
    split
    · rfl
    · exact ih _ _

theorem mem_directories_of_lt {fs : Files} {above : Place} {names : List String}
    (below : above.length + names.length < place.length) :
    place ∈ (fs.makeDirectories above names).1.directories ↔ place ∈ fs.directories := by
  induction names generalizing fs above with
  | nil => rfl
  | cons name names ih =>
    rw [List.length_cons] at below
    simp only [makeDirectories]
    split
    · rfl
    · rw [ih (by rw [List.length_append, List.length_singleton]; omega)]
      split
      · rfl
      · have apart : place ≠ above ++ [name] := by
          rintro rfl
          rw [List.length_append, List.length_singleton] at below
          omega
        rw [List.mem_cons]
        exact or_iff_right apart

/-- All directories are there if the file system takes their names and no file is in the way. -/
theorem makeDirectories_iff {fs : Files} {above : Place} {names : List String} :
    (fs.makeDirectories above names).2 = true ↔ (∀ name ∈ names, isName name = true) ∧
      ∀ d, d <+: names → d ≠ [] → fs.find? (above ++ d) = none := by
  induction names generalizing fs above with
  | nil => simp [makeDirectories]
  | cons name names ih =>
    simp only [makeDirectories]
    split
    · rename_i stuck
      simp only [Bool.or_eq_true, Bool.not_eq_true'] at stuck
      refine iff_of_false Bool.false_ne_true fun ⟨taken, clear⟩ => ?_
      rcases stuck with file | bad
      · rw [clear [name] (by simp) (by simp)] at file
        cases file
      · rw [taken name List.mem_cons_self] at bad
        cases bad
    · rename_i passes
      simp only [Bool.or_eq_true, Bool.not_eq_true', not_or, Bool.not_eq_false,
        Option.isSome_iff_ne_none, not_not] at passes
      rw [ih, List.forall_mem_cons]
      simp only [find?, List.append_assoc, List.singleton_append]
      constructor
      · rintro ⟨taken, clear⟩
        refine ⟨⟨passes.2, taken⟩, fun d start some_name => ?_⟩
        obtain ⟨first, rest, rfl⟩ := List.exists_cons_of_ne_nil some_name
        obtain ⟨rfl, inside⟩ := List.cons_prefix_cons.mp start
        cases rest with
        | nil => exact passes.1
        | cons next rest => exact clear _ inside (by simp)
      · rintro ⟨taken, clear⟩
        exact ⟨taken.2, fun d start _ => clear (name :: d) (List.cons_prefix_cons.mpr ⟨rfl, start⟩)
          (by simp)⟩

theorem databases_withDirectories (fs : Files) (place : Place) :
    (fs.withDirectories place).1.databases = fs.databases := by
  unfold withDirectories
  split
  · rfl
  · exact databases_makeDirectories fs [] _

theorem isDirectory_iff : fs.isDirectory place = true ↔ place = [] ∨ place ∈ fs.directories := by
  simp [isDirectory]

/-- A place is none of the directories above it. -/
theorem isDirectory_withDirectories (fs : Files) (place : Place) :
    (fs.withDirectories place).1.isDirectory place = fs.isDirectory place := by
  unfold withDirectories
  split
  · rfl
  · rw [Bool.eq_iff_iff, isDirectory_iff, isDirectory_iff]
    by_cases named : place = []
    · simp [named]
    · have below : ([] : Place).length + place.dropLast.length < place.length := by
        rw [List.length_nil, List.length_dropLast, Nat.zero_add]
        exact Nat.sub_one_lt (List.length_eq_zero_iff.not.mpr named)
      rw [mem_directories_of_lt below]

theorem withDirectories_iff : (fs.withDirectories place).2 = true ↔
    (∀ name ∈ place.dropLast, isName name = true) ∧
      ∀ d, d <+: place.dropLast → d ≠ [] → fs.find? d = none := by
  unfold withDirectories
  split
  · rename_i null
    obtain ⟨name, member, has⟩ := List.any_eq_true.mp null
    refine iff_of_false Bool.false_ne_true fun taken => ?_
    simpa [isName, has] using taken.1 name member
  · exact makeDirectories_iff

theorem prefix_dropLast_iff {d : Place} (named : place ≠ []) :
    d <+: place.dropLast ↔ d <+: place ∧ d ≠ place := by
  have whole := List.dropLast_concat_getLast named
  constructor
  · intro start
    refine ⟨start.trans (List.dropLast_prefix place), ?_⟩
    rintro rfl
    have shorter := start.length_le
    rw [List.length_dropLast] at shorter
    have some_name := List.length_pos_iff.mpr named
    omega
  · rintro ⟨start, apart⟩
    rw [← whole] at start
    exact (List.prefix_concat_iff.mp start).resolve_left (by rwa [whole])

/-- A file is there after it has been touched if it can be opened, and else it cannot. -/
theorem touch_iff : (fs.touch place).2 = true ↔ fs.Opens place := by
  have touched : (fs.touch place).2 = true ↔ (fs.withDirectories place).2 = true ∧
      (place ≠ [] ∧ place ∉ fs.directories) ∧ ∀ name ∈ place, isName name = true := by
    rw [← not_or, ← isDirectory_iff, ← isDirectory_withDirectories, ← List.all_eq_true]
    simp only [touch]
    split
    · rename_i shut
      refine iff_of_false Bool.false_ne_true fun opens => ?_
      simp [opens] at shut
    · rename_i opens
      refine iff_of_true (by split <;> rfl) ?_
      simpa [and_assoc] using opens
  rw [touched, withDirectories_iff]
  constructor
  · rintro ⟨⟨-, clear⟩, ⟨named, free⟩, names⟩
    exact ⟨named, names, free, fun d start some_name apart =>
      clear d ((prefix_dropLast_iff named).mpr ⟨start, apart⟩) some_name⟩
  · rintro ⟨named, names, free, clear⟩
    refine ⟨⟨fun name member => names name (List.dropLast_subset place member),
      fun d start some_name => ?_⟩, ⟨named, free⟩, names⟩
    obtain ⟨start, apart⟩ := (prefix_dropLast_iff named).mp start
    exact clear d start some_name apart

theorem keeps_touch (fs : Files) (place : Place) : fs.Keeps (fs.touch place).1 := by
  have keeps := keeps_of_databases (databases_withDirectories fs place)
  simp only [touch]
  split
  · exact keeps
  · split
    · exact keeps
    · rename_i missing
      refine ⟨fun other => ?_, fun other there => ?_⟩
      · rw [committed_set, ← keeps.committed]
        split
        · rename_i here
          rw [here, committed, missing]
          rfl
        · rfl
      · rw [find?_set]
        split
        · rfl
        · exact keeps.there other there

end Files

/-! ### Opening and executing -/

namespace Pool

variable {fs fs' : Files} {place : Place} {trouble : Option String}
  {connection connection' : Option Sql.Connection} {c : Sql.Connection} {w : Write}
  {outcome : Outcome}

/-- The connection that a writer executes a statement on: the one that it has, or a fresh one where
it has none and nothing keeps it from opening the file. -/
inductive Connects (fs : Files) (place : Place) :
    (trouble : Option String) → (connection : Option Sql.Connection) → Sql.Connection → Prop where
  | kept (trouble : Option String) (c : Sql.Connection) : Connects fs place trouble (some c) c
  | opened (opens : fs.Opens place) : Connects fs place none none {}

theorem Connects.own (connects : Connects fs place trouble connection c) :
    c.own = (connection.getD {}).own := by
  cases connects <;> rfl

theorem keeps_openFile (fs : Files) (place : Place) (trouble : Option String) :
    fs.Keeps (openFile fs place trouble).1 := by
  cases trouble with
  | some message => exact Files.keeps_of_databases (fs.databases_withDirectories place)
  | none => exact Files.keeps_touch fs place

theorem openFile_ok {made : Files} (opened : openFile fs place trouble = (made, .ok c)) :
    Connects fs place trouble none c := by
  cases trouble with
  | some message => cases opened
  | none =>
    simp only [openFile] at opened
    split at opened
    · rename_i there
      cases opened
      exact .opened (Files.touch_iff.mp there)
    · cases opened

theorem openFile_error {made : Files} {fault : Fault}
    (failed : openFile fs place trouble = (made, .error fault)) :
    (∀ c, ¬ Connects fs place trouble none c) ∧
      fault = .database (trouble.getD unopenable) := by
  cases trouble with
  | some message =>
    cases failed
    exact ⟨fun c connects => (nomatch connects), rfl⟩
  | none =>
    simp only [openFile] at failed
    split at failed
    · cases failed
    · rename_i missing
      cases failed
      refine ⟨fun c connects => ?_, rfl⟩
      cases connects with
      | opened opens => exact missing (Files.touch_iff.mpr opens)

/-- A writer has no connection and cannot open its file, or it executes the statement on what is
committed there. -/
theorem apply_cases (gives : apply fs place trouble connection w = (fs', connection', outcome)) :
    (fs.Keeps fs' ∧ (∀ c, ¬ Connects fs place trouble connection c) ∧ connection = none ∧
      connection' = none ∧ outcome = .error (.database (trouble.getD unopenable))) ∨
      ∃ (made : Files) (c : Sql.Connection), fs.Keeps made ∧
        Connects fs place trouble connection c ∧
        fs' = made.set place (c.execute (fs.committed place) w.sql w.parameters).committed ∧
        connection' = some (c.execute (fs.committed place) w.sql w.parameters).connection ∧
        outcome = (c.execute (fs.committed place) w.sql w.parameters).answer.mapError
          Fault.ofSql := by
  cases connection with
  | some c =>
    cases gives
    exact .inr ⟨fs, c, Files.keeps_of_databases rfl, .kept trouble c, rfl, rfl, rfl⟩
  | none =>
    cases opened : openFile fs place trouble with
    | mk made result =>
      have keeps := keeps_openFile fs place trouble
      rw [opened] at keeps
      cases result with
      | error f =>
        simp only [apply, opened, Prod.mk.injEq] at gives
        obtain ⟨rfl, rfl, rfl⟩ := gives
        obtain ⟨shut, rfl⟩ := openFile_error opened
        exact .inl ⟨keeps, shut, rfl, rfl, rfl⟩
      | ok c =>
        simp only [apply, opened, Prod.mk.injEq] at gives
        obtain ⟨rfl, rfl, rfl⟩ := gives
        have same : (made.find? place).getD {} = fs.committed place := keeps.committed place
        rw [same]
        exact .inr ⟨made, c, keeps, openFile_ok opened, rfl, rfl, rfl⟩

end Pool

/-! ### What becomes of a store -/

/-- A store before and after a write. Its writer has executed the statement, with its parameters, on
the connection that it has or has opened and on what is committed in its file; or it has no
connection and cannot open the file. Nothing else changes, and the outcome says which it was. -/
inductive Store.Writes (s : Store) (a : Application) (s' : Store) : Prop where
  | executed (c : Sql.Connection) (o : Sql.Outcome)
      (connects : Pool.Connects s.files a.place a.trouble (s.connections a.place) c)
      (executes : o = c.execute (s.files.committed a.place) a.write.sql a.write.parameters)
      (committed : ∀ place, s'.files.committed place =
        if place = a.place then o.committed else s.files.committed place)
      (connections : ∀ place, s'.connections place =
        if place = a.place then some o.connection else s.connections place)
      (outcome : a.outcome = o.answer.mapError Fault.ofSql)
  | unopened (shut : ∀ c, ¬ Pool.Connects s.files a.place a.trouble (s.connections a.place) c)
      (committed : ∀ place, s'.files.committed place = s.files.committed place)
      (connections : ∀ place, s'.connections place = s.connections place)
      (outcome : a.outcome = .error (.database (a.trouble.getD Pool.unopenable)))

theorem Store.writes_apply {s : Store} {a : Application} (outcome : a.outcome = (s.apply a).2) :
    s.Writes a (s.apply a).1 := by
  cases gives : Pool.apply s.files a.place a.trouble (s.connections a.place) a.write with
  | mk files rest =>
    obtain ⟨connection, result⟩ := rest
    have applied : s.apply a = (⟨files, fun place =>
        if place = a.place then connection else s.connections place⟩, result) := by
      rw [Store.apply, gives]
    rw [applied] at outcome ⊢
    rcases Pool.apply_cases gives with
      ⟨keeps, shut, missing, rfl, failed⟩ | ⟨made, c, keeps, connects, rfl, rfl, answered⟩
    · refine .unopened shut keeps.committed (fun place => ?_) (outcome.trans failed)
      dsimp only
      split
      · rename_i here
        rw [here, missing]
      · rfl
    · refine .executed c _ connects rfl (fun place => ?_) (fun place => rfl)
        (outcome.trans answered)
      rw [Files.committed_set]
      split
      · rfl
      · exact keeps.committed place

end ScriptGate.Storage
