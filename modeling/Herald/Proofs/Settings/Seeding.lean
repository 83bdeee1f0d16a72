import Herald.Proofs.Ascending
import Herald.Proofs.User.Seeding
import Herald.Settings.Build
import Mathlib

/-!
What a build leaves on the disk. Users of a file are stored one after another, and each is on the disk
before the next one is looked at; but all of them have been read before the first one is stored. So a
file that cannot be read leaves everything as it was, and a second build changes nothing.
-/

namespace Herald

namespace Dictionary

variable {α : Type}

@[simp] theorem set_set (m : Dictionary α) (k : String) (a b : α) :
    (m.set k a).set k b = m.set k b := by
  refine ext_of_get? fun k' => ?_
  rw [get?_set, get?_set, get?_set]
  split <;> rfl

theorem set_of_get? {m : Dictionary α} {k : String} {a : α} (h : m.get? k = some a) :
    m.set k a = m := by
  refine ext_of_get? fun k' => ?_
  rw [get?_set]
  split
  · rename_i hk
    rw [← hk, h]
  · rfl

end Dictionary

/-! ### Disks -/

namespace Disk

variable {d d' : Disk} {path : String} {kept : Table}

/-- The rows that are kept under a path. -/
def rows (d : Disk) (path : String) : Table :=
  (d.databases.get? path).getD []

/-- The files are the same, and so are the rows of every database. -/
structure Same (d d' : Disk) : Prop where
  files : d'.files = d.files
  rows : ∀ path, d'.rows path = d.rows path

theorem Same.refl (d : Disk) : d.Same d :=
  ⟨rfl, fun _ => rfl⟩

theorem rows_set (d : Disk) (path : String) (rows : Table) (path' : String) :
    Disk.rows { d with databases := d.databases.set path rows } path' =
      if path = path' then rows else d.rows path' := by
  rw [Disk.rows, Dictionary.get?_set]
  split <;> rfl

theorem openDatabase_of_get? (h : d.databases.get? path = some kept) :
    d.openDatabase path = .ok (kept, d) := by
  rw [openDatabase, h]

/-- Opening a database changes no rows. A new one is on the disk from then on, unless it is only in
memory. -/
theorem openDatabase_eq_ok (h : d.openDatabase path = .ok (kept, d')) :
    kept = d.rows path ∧ d.Same d' ∧ (path = inMemory → d' = d) ∧
      (path ≠ inMemory → d'.databases.get? path = some kept) := by
  unfold openDatabase at h
  split at h
  · rename_i hkept
    cases h
    exact ⟨by rw [Disk.rows, hkept]; rfl, .refl d, fun _ => rfl, fun _ => hkept⟩
  · rename_i hnone
    have hempty : d.rows path = [] := by rw [Disk.rows, hnone]; rfl
    split at h
    · rename_i hmemory
      cases h
      exact ⟨hempty.symm, .refl d, fun _ => rfl, fun hpath => absurd hmemory hpath⟩
    · rename_i hpath
      split at h
      · cases h
      · split at h
        · cases h
          refine ⟨hempty.symm, ⟨rfl, fun path' => ?_⟩, fun hmemory => absurd hmemory hpath, fun _ => ?_⟩
          · rw [rows_set]
            split
            · rename_i hsame
              rw [← hsame, hempty]
            · rfl
          · rw [Dictionary.get?_set, if_pos rfl]
        · cases h

end Disk

namespace Settings

variable {s : Settings} {d d' : Disk} {store store' : UserStore} {users : List User} {path : String}

/-! ### Before a build -/

/-- What is stored before a build. -/
def stored (s : Settings) (d : Disk) : UserStore :=
  match s.database with
  | none => .ofUsers []
  | some path => ⟨.table (d.rows path), none⟩

/-- The database can be opened, if there is one. -/
def Opens (s : Settings) (d : Disk) : Prop :=
  ∀ path, s.database = some path → ∃ opened, d.openDatabase path = .ok opened

/-- Users are kept under this path for the next build. -/
structure Durable (s : Settings) (path : String) : Prop where
  database : s.database = some path
  path_ne : path ≠ Disk.inMemory

theorem atHand_stored (s : Settings) (d : Disk) : (s.stored d).AtHand := by
  unfold stored
  split
  · refine ⟨rfl, ?_⟩
    rintro _ ⟨⟩
    exact Directory.unique_nil
  · exact ⟨rfl, nofun⟩

theorem isTable_stored (h : s.Durable path) (d : Disk) : (s.stored d).isTable := by
  rw [stored, h.database]
  rfl

/-! ### Opening and saving -/

theorem save_of_not_durable (h : ∀ path, ¬s.Durable path) (store : UserStore) (d : Disk) :
    s.save store d = d := by
  unfold save
  split
  · rename_i path rows hpath _
    split
    · rfl
    · rename_i hne
      exact absurd ⟨hpath, hne⟩ (h path)
  · rfl

/-- A table is kept under the path of the database. -/
theorem save_table (h : s.Durable path) (rows : Table) (outage : Option UserStore.Outage)
    (d : Disk) :
    s.save ⟨.table rows, outage⟩ d = { d with databases := d.databases.set path rows } := by
  rw [save, h.database]
  exact if_neg h.path_ne

@[simp] theorem files_save (s : Settings) (store : UserStore) (d : Disk) :
    (s.save store d).files = d.files := by
  unfold save
  split
  · split <;> rfl
  · rfl

/-- The rows of other paths stay as they are. -/
theorem rows_save_of_ne (h : ¬s.Durable path) (store : UserStore) (d : Disk) :
    (s.save store d).rows path = d.rows path := by
  unfold save
  split
  · rename_i own rows hown _
    split
    · rfl
    · rename_i hne
      rw [Disk.rows_set, if_neg]
      rintro rfl
      exact h ⟨hown, hne⟩
  · rfl

/-- Of two stores of a kind the last one that was saved counts. -/
theorem save_save (hkind : store'.isTable = store.isTable) (d : Disk) :
    s.save store' (s.save store d) = s.save store' d := by
  obtain ⟨backing, outage⟩ := store
  obtain ⟨backing', outage'⟩ := store'
  unfold save
  cases s.database with
  | none => rfl
  | some path =>
    cases backing with
    | directory users => rfl
    | table rows =>
      cases backing' with
      | directory users => cases hkind
      | table rows' =>
        dsimp only
        split
        · rfl
        · rw [Dictionary.set_set]

/-- Opening leaves all rows as they are, and what is opened is on the disk already. -/
theorem openBacking_eq_ok (h : (s.openBacking d).value = .ok (store, d')) :
    store = s.stored d ∧ d.Same d' ∧ s.save store d' = d' ∧
      ((∀ path, ¬s.Durable path) → d' = d) := by
  unfold openBacking at h
  unfold stored
  cases hdatabase : s.database with
  | none =>
    rw [hdatabase] at h
    cases h
    have hnot : ∀ path, ¬s.Durable path := fun path hpath => by
      cases hdatabase.symm.trans hpath.database
    exact ⟨rfl, .refl d, save_of_not_durable hnot _ _, fun _ => rfl⟩
  | some path =>
    rw [hdatabase] at h
    dsimp only [Logged.value_bind, Logged.value_pure] at h
    split at h
    · rename_i rows opened hopen
      cases h
      obtain ⟨rfl, hsame, hmemory, hkept⟩ := Disk.openDatabase_eq_ok hopen
      refine ⟨rfl, hsame, ?_, fun hnot => hmemory ?_⟩
      · by_cases hpath : path = Disk.inMemory
        · refine save_of_not_durable (fun own hown => hown.path_ne ?_) _ _
          rw [← hpath]
          exact Option.some.inj (hown.database.symm.trans hdatabase)
        · rw [save_table ⟨hdatabase, hpath⟩, Dictionary.set_of_get? (hkept hpath)]
      · by_contra hpath
        exact hnot path ⟨hdatabase, hpath⟩
    · cases h

theorem exists_openBacking (h : s.Opens d) :
    ∃ d', (s.openBacking d).value = .ok (s.stored d, d') := by
  unfold openBacking stored
  cases hdatabase : s.database with
  | none => exact ⟨d, rfl⟩
  | some path =>
    obtain ⟨⟨rows, d'⟩, hopen⟩ := h path hdatabase
    refine ⟨d', ?_⟩
    dsimp only [Logged.value_bind, Logged.value_pure]
    rw [hopen, (Disk.openDatabase_eq_ok hopen).1]

/-- What has been saved is what is opened again. -/
theorem openBacking_save (h : s.Durable path) (hstore : store.AtHand) (hkind : store.isTable)
    (d : Disk) : (s.openBacking (s.save store d)).value = .ok (store, s.save store d) := by
  obtain ⟨backing, outage⟩ := store
  obtain rfl := hstore.outage
  cases backing with
  | directory users => cases hkind
  | table rows =>
    have hkept : (d.databases.set path rows).get? path = some rows := by
      rw [Dictionary.get?_set, if_pos rfl]
    rw [save_table h, openBacking, h.database]
    dsimp only [Logged.value_bind, Logged.value_pure]
    rw [Disk.openDatabase_of_get? hkept]

/-! ### Storing users -/

/-- All users are stored, and in the end the disk holds what the store holds. -/
theorem exists_storeEach (h : store.AtHand) (hsaved : s.save store d = d) (users : List User) :
    ∃ store', s.storeEach users store d = (.ok store', s.save store' d) ∧
      seed store users = .ok store' ∧ store'.AtHand ∧ store'.isTable = store.isTable ∧
      store'.rows = store.rows.putAll users := by
  induction users generalizing store d with
  | nil => exact ⟨store, by rw [storeEach, hsaved], rfl, h, rfl, rfl⟩
  | cons u rest ih =>
    obtain ⟨next, hput, hnext, hkind, hrows⟩ := h.put u
    obtain ⟨store', heach, hseed, hstore', hkind', hrows'⟩ := ih hnext (save_save rfl d)
    refine ⟨store', ?_, ?_, hstore', hkind'.trans hkind, ?_⟩
    · rw [storeEach, hput]
      dsimp only
      rw [heach, save_save hkind']
    · rw [seed, List.foldlM_cons, hput]
      exact hseed
    · rw [hrows', hrows, Table.putAll_cons]

/-- A build gives what comes of its writes, if it does not fail, and the disk as they leave it. -/
theorem value_build (s : Settings) (network : Network) (d : Disk) :
    (s.build network d).value = (s.install d).1.bind fun store =>
      (s.connect network).map fun service => (s.options store service, (s.install d).2) := by
  unfold build openStore install
  simp only [Logged.value_bind, Logged.value_pure]
  cases hopen : (s.openBacking d).value with
  | error e => rfl
  | ok opened =>
    obtain ⟨store, d'⟩ := opened
    obtain ⟨rfl, -, hsaved, -⟩ := openBacking_eq_ok hopen
    dsimp only
    unfold addUsers
    cases s.users with
    | none => rfl
    | some path =>
      dsimp only
      cases readUsers d' path with
      | error e => rfl
      | ok users =>
        obtain ⟨store', heach, hseed, -⟩ := exists_storeEach (s.atHand_stored d) hsaved users
        dsimp only [Logged.value_bind, Logged.value_pure]
        rw [heach, hseed]
        rfl

/-! ### What a build leaves behind -/

theorem readUsers_of_files (h : d'.files = d.files) (path : String) :
    readUsers d' path = readUsers d path := by
  rw [readUsers, readUsers, Disk.read, Disk.read, h]

/-- Once the store is open, all depends on what is read. -/
theorem install_of_opened (hopen : (s.openBacking d).value = .ok (store, d'))
    (husers : s.users = some path) : s.install d =
      match readUsers d' path with
      | .error e => (.error e, d')
      | .ok users => s.storeEach users store d' := by
  cases hread : readUsers d' path <;> simp only [install, hopen, husers, hread]

theorem connect_eq_ok {network : Network} (h : s.slackToken = none ∨ network.fault = none) :
    s.connect network = .ok network.service := by
  unfold connect
  obtain htoken | hfault := h
  · rw [htoken]
  · rw [hfault]
    cases s.slackToken <;> rfl

/-- The disk after a build: the rows of the database, if they are kept there, are those of the store, and
everything else is as it was. -/
structure Leaves (s : Settings) (store : UserStore) (d left : Disk) : Prop where
  files : left.files = d.files
  durable : ∀ path, s.Durable path → left.rows path = store.rows
  other : ∀ path, ¬s.Durable path → left.rows path = d.rows path

theorem leaves_save (hsame : d.Same d') (hkind : store.isTable = (s.stored d).isTable) :
    s.Leaves store d (s.save store d') where
  files := (files_save s store d').trans hsame.files
  durable := by
    intro path hpath
    rw [isTable_stored hpath] at hkind
    obtain ⟨backing, outage⟩ := store
    cases backing with
    | directory users => cases hkind
    | table rows =>
      rw [save_table hpath, Disk.rows_set, if_pos rfl]
      rfl
  other := by
    intro path hpath
    rw [rows_save_of_ne hpath, hsame.rows]

/-- Users that are in the store already are stored once more without any change. -/
theorem storeEach_of_putAll (hstore : store.AtHand) (hsaved : s.save store d = d)
    (hrows : store.rows.putAll users = store.rows) :
    s.storeEach users store d = (.ok store, d) ∧ seed store users = .ok store := by
  obtain ⟨store', heach, hseed, hstore', hkind, hrows'⟩ := exists_storeEach hstore hsaved users
  obtain rfl := hstore.ext hstore' hkind (hrows'.trans hrows)
  rw [hsaved] at heach
  exact ⟨heach, hseed⟩

/-- A second build with the same file leaves everything as it finds it. -/
theorem install_again (hopen : (s.openBacking d).value = .ok (s.stored d, d'))
    (husers : s.users = some path) (hread : readUsers d path = .ok users)
    (hinstall : s.install d = (.ok store, s.save store d')) (hstore : store.AtHand)
    (hkind : store.isTable = (s.stored d).isTable) (hrows : store.rows.putAll users = store.rows) :
    s.install (s.save store d') = (.ok store, s.save store d') := by
  obtain ⟨-, hsame, -, hvolatile⟩ := openBacking_eq_ok hopen
  by_cases hdurable : ∃ own, s.Durable own
  · obtain ⟨own, hown⟩ := hdurable
    rw [isTable_stored hown] at hkind
    have hfiles := (files_save s store d').trans hsame.files
    rw [install_of_opened (openBacking_save hown hstore hkind d') husers,
      readUsers_of_files hfiles, hread]
    exact (storeEach_of_putAll hstore (save_save rfl d') hrows).1
  · have hnot := not_exists.mp hdurable
    rw [save_of_not_durable hnot, hvolatile hnot] at hinstall ⊢
    exact hinstall

/-- What a build does with a file of users. -/
structure Seeds (s : Settings) (network : Network) (d : Disk) (path : String) : Prop where
  /-- The build is the one whose writes are told one by one. -/
  writes : (s.build network d).value = (s.install d).1.bind fun store =>
    (s.connect network).map fun service => (s.options store service, (s.install d).2)
  /-- If the file cannot be read or decoded, the build fails and no row has changed. -/
  unread : ∀ e, readUsers d path = .error e → (s.build network d).value = .error e ∧
    ∀ path', (s.install d).2.rows path' = d.rows path'
  /-- Otherwise the users of the file are stored, also if no client can be made, and a second build
  changes nothing. -/
  read : ∀ users, readUsers d path = .ok users → ∃ store left, s.install d = (.ok store, left) ∧
    (s.build network d).value =
      (s.connect network).map (fun service => (s.options store service, left)) ∧
      UserStore.Seeded users (s.stored d) store ∧ s.Leaves store d left ∧
      s.install left = (.ok store, left) ∧
      (s.build network left).value = (s.build network d).value ∧
      seed store users = .ok store
  /-- A client that is asked for is made, unless something keeps it from being made. -/
  connects : s.slackToken = none ∨ network.fault = none → s.connect network = .ok network.service

/-- A file of users is stored as a whole or not at all. The last record of a key counts, all other users
stay as they are, and storing the file again changes nothing. -/
theorem build_seeds_users (s : Settings) (network : Network) (d : Disk) (path : String)
    (husers : s.users = some path) (hopens : s.Opens d) : s.Seeds network d path := by
  obtain ⟨d', hopen⟩ := exists_openBacking hopens
  obtain ⟨-, hsame, hsaved, -⟩ := openBacking_eq_ok hopen
  have hinstall := install_of_opened hopen husers
  rw [readUsers_of_files hsame.files] at hinstall
  refine ⟨value_build s network d, fun e hread => ?_, fun users hread => ?_, connect_eq_ok⟩
  · rw [hread] at hinstall
    rw [value_build, hinstall]
    exact ⟨rfl, hsame.rows⟩
  · obtain ⟨store, heach, -, hstore, hkind, hrows⟩ :=
      exists_storeEach (s.atHand_stored d) hsaved users
    rw [hread] at hinstall
    replace hinstall := hinstall.trans heach
    have hkept : store.rows.putAll users = store.rows := by
      rw [hrows, Table.putAll_putAll]
    have hagain := install_again hopen husers hread hinstall hstore hkind hkept
    have hwritten : s.save store (s.save store d') = s.save store d' := save_save rfl d'
    have hbuild : (s.build network d).value =
        (s.connect network).map fun service => (s.options store service, s.save store d') := by
      rw [value_build, hinstall]
      rfl
    refine ⟨store, s.save store d', hinstall, hbuild,
      UserStore.seeded_of_rows (s.atHand_stored d) hstore hrows, leaves_save hsame hkind, hagain, ?_,
      (storeEach_of_putAll hstore hwritten hkept).2⟩
    rw [hbuild, value_build, hagain]
    rfl

/-! An example: two records of one key, over a database in which another user cannot be read. -/

def seedSettings : Settings :=
  { standard with database := some "users.db", users := some "users.json" }

/-- A service that is never called. -/
def silentNetwork : Network :=
  ⟨⟨Slack.publicAddress, [], []⟩, none⟩

def ada : User :=
  ⟨"ada", .singleton ⟨⟨none, "pager", Identifier.plain_of_mem_none, by decide⟩, "41", by decide⟩,
    ∅⟩

/-- A disk with a file of users, and a database in which "ben" has identifiers that are not JSON. -/
def seedDisk (file : String) : Disk :=
  ⟨Dictionary.set ∅ "users.json" (.ok file), Dictionary.set ∅ "users.db"
    [⟨"ada", "\x7b\x7d", "\x7b\x7d", "[]"⟩, ⟨"ben", "\x7b\x7d", "?", "[]"⟩], []⟩

/-- Twice the same key, once as an object and once as an array. -/
def seedFile : String :=
  "[\x7b\"key\":\"ada\"\x7d,[\"ada\",\x7b\"pager\":\"41\"\x7d]]"

/-- The second record has no key. -/
def brokenFile : String :=
  "[[\"ada\",\x7b\"pager\":\"41\"\x7d],\x7b\x7d]"

theorem build_seeds_users_sample :
    seedSettings.users = some "users.json" ∧
      seedSettings.Opens (seedDisk seedFile) ∧ seedSettings.Opens (seedDisk brokenFile) ∧
      (∃ store left, (seedSettings.build silentNetwork (seedDisk seedFile)).value =
        .ok (seedSettings.options store silentNetwork.service, left) ∧
          store.get "ada" = .ok ada ∧ store.get "ben" = .error (.badRecord .grammar) ∧
          left.rows "users.db" = store.rows) ∧
      (seedSettings.build silentNetwork (seedDisk brokenFile)).value =
        .error (.malformedUsers "users.json" (.missingField "key")) ∧
      (seedSettings.install (seedDisk brokenFile)).2.rows "users.db" =
        (seedDisk brokenFile).rows "users.db" := by
  have hopens : ∀ file, seedSettings.Opens (seedDisk file) := by
    rintro file _ ⟨⟩
    exact ⟨_, rfl⟩
  have hread : readUsers (seedDisk seedFile) "users.json" = .ok [⟨"ada", ∅, ∅⟩, ada] := by
    cbv
  have hunread : readUsers (seedDisk brokenFile) "users.json" =
      .error (.malformedUsers "users.json" (.missingField "key")) := by
    cbv
  have hbroken := build_seeds_users seedSettings silentNetwork (seedDisk brokenFile) "users.json"
    rfl (hopens brokenFile)
  obtain ⟨store, left, -, hbuild, hseeded, hleaves, -⟩ := (build_seeds_users seedSettings
    silentNetwork (seedDisk seedFile) "users.json" rfl (hopens seedFile)).read _ hread
  obtain ⟨u, hlast, -, hget, -⟩ := hseeded.last "ada" (by simp)
  have hu : u = ada := by
    simpa [User.LastOf.cons_iff, User.LastOf.not_nil, ada] using hlast
  have hben : (seedSettings.stored (seedDisk seedFile)).get "ben" = .error (.badRecord .grammar) := by
    cbv
  exact ⟨rfl, hopens seedFile, hopens brokenFile, ⟨store, left, hbuild, hu ▸ hget,
    (hseeded.get_other "ben" (by simp [ada])).trans hben, hleaves.durable _ ⟨rfl, by decide⟩⟩,
    (hbroken.unread _ hunread).1, (hbroken.unread _ hunread).2 "users.db"⟩

end Settings

end Herald
