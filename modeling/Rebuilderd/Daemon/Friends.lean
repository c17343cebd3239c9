import Rebuilderd.Daemon.Schema

/-!
Friends: the build inputs with the same url, backend and architecture, which share their
rebuilds. A build input is a friend of itself.
-/

namespace Rebuilderd.Daemon

open Rebuilderd.Lib Rebuilderd.Common

/-- What friends have in common. -/
structure Group where
  url : String
  backend : String
  architecture : String
  deriving DecidableEq

def BuildInput.group (b : BuildInput) : Group := ⟨b.url, b.backend, b.architecture⟩

/-- The columns of a build input that never change. -/
def BuildInput.identity (b : BuildInput) : ℕ × ℕ × Group := (b.id, b.sourcePackageId, b.group)

def Db.inputs (db : Db) : List (ℕ × ℕ × Group) := db.buildInputs.rows.map BuildInput.identity

lemma mem_inputs {db : Db} {i s : ℕ} {g : Group} : (i, s, g) ∈ db.inputs ↔
    ∃ b ∈ db.buildInputs.rows, b.id = i ∧ b.sourcePackageId = s ∧ b.group = g := by
  simp [Db.inputs, BuildInput.identity]

/-- A build input is of one source package and of one group. -/
lemma inputs_inj {db : Db} {i s s' : ℕ} {g g' : Group} (h : (i, s, g) ∈ db.inputs)
    (h' : (i, s', g') ∈ db.inputs) : s = s' ∧ g = g' := by
  obtain ⟨b, hb, hid, rfl, rfl⟩ := mem_inputs.mp h
  obtain ⟨b', hb', hid', rfl, rfl⟩ := mem_inputs.mp h'
  rw [Table.eq_of_key hb hb' (hid.trans hid'.symm)]
  exact ⟨rfl, rfl⟩

/-! ### Statements -/

def buildInputFriends (db : Db) (id : ℕ) : List ℕ :=
  let b1 := db.buildInputs.rows.filter fun b => b.id == id
  (db.buildInputs.rows.filter fun b =>
    (b1.map (·.url)).contains b.url && (b1.map (·.backend)).contains b.backend &&
      (b1.map (·.architecture)).contains b.architecture).map (·.id)

def setNextRetry (ids : List ℕ) (t : Option Time) (db : Db) : Db :=
  { db with buildInputs := db.buildInputs.update (fun b => ids.contains b.id) fun b =>
      { b with nextRetry := t } }

def incrementRetries (ids : List ℕ) (db : Db) : Db :=
  { db with buildInputs := db.buildInputs.update (fun b => ids.contains b.id) fun b =>
      { b with retries := b.retries + 1 } }

/-- Remove the queue rows of the build inputs `ids`. -/
def deleteQueuedOf (ids : List ℕ) (db : Db) : Db :=
  { db with queue := db.queue.delete fun q => ids.contains q.buildInputId }

/-- `max(retries)` over the build inputs `ids`; NULL cannot be read as a number. -/
def maxRetriesOf (ids : List ℕ) (db : Db) : Except Err ℤ :=
  match ((db.buildInputs.rows.filter fun b => ids.contains b.id).map (·.retries)).max? with
  | some n => .ok n
  | none => .error .notFound

/-! ### Functions of several statements, as they run inside a transaction -/

def markBuildInputFriendsAsNonRetriable (db : Db) (id : ℕ) : Db :=
  let friends := buildInputFriends db id
  deleteQueuedOf friends (setNextRetry friends none db)

def hasQueuedFriend (db : Db) (id : ℕ) : Bool :=
  db.queue.rows.any fun q => (buildInputFriends db id).contains q.buildInputId

def getLargestRetryCountAmongFriends (db : Db) (id : ℕ) : Except Err ℤ :=
  maxRetriesOf (buildInputFriends db id) db

@[simp] lemma setNextRetry_inputs (ids : List ℕ) (t : Option Time) (db : Db) :
    (setNextRetry ids t db).inputs = db.inputs := by
  unfold setNextRetry Db.inputs
  exact Table.map_rows_update _ fun _ _ _ => rfl

@[simp] lemma incrementRetries_inputs (ids : List ℕ) (db : Db) :
    (incrementRetries ids db).inputs = db.inputs := by
  unfold incrementRetries Db.inputs
  exact Table.map_rows_update _ fun _ _ _ => rfl

/-! ### Who is a friend -/

/-- The subqueries on the build input itself read its own columns. -/
lemma contains_own {db : Db} {b : BuildInput} (hb : b ∈ db.buildInputs.rows)
    (f : BuildInput → String) (x : String) :
    ((db.buildInputs.rows.filter fun a => a.id == b.id).map f).contains x = true ↔ x = f b := by
  simp only [List.contains_iff_mem, List.mem_map, List.mem_filter, beq_iff_eq]
  constructor
  · rintro ⟨a, ⟨ha, hid⟩, rfl⟩
    rw [Table.eq_of_key ha hb hid]
  · rintro rfl
    exact ⟨b, ⟨hb, rfl⟩, rfl⟩

/-- The friends of a stored build input are the members of its group. -/
lemma buildInputFriends_eq {db : Db} {b : BuildInput} (hb : b ∈ db.buildInputs.rows) :
    buildInputFriends db b.id =
      (db.buildInputs.rows.filter fun c => c.group == b.group).map (·.id) := by
  unfold buildInputFriends
  refine congrArg (List.map BuildInput.id) (List.filter_congr fun c _ => ?_)
  rw [Bool.eq_iff_iff]
  simp only [Bool.and_eq_true, contains_own hb, beq_iff_eq, BuildInput.group, Group.mk.injEq,
    and_assoc]

lemma mem_buildInputFriends {db : Db} {b : BuildInput} (hb : b ∈ db.buildInputs.rows) {i : ℕ} :
    i ∈ buildInputFriends db b.id ↔ ∃ c ∈ db.buildInputs.rows, c.group = b.group ∧ c.id = i := by
  simp [buildInputFriends_eq hb, and_assoc]

/-- Friends are told apart by what never changes. -/
lemma mem_buildInputFriends_iff {db : Db} {i s : ℕ} {g : Group} (h : (i, s, g) ∈ db.inputs) {j : ℕ} :
    j ∈ buildInputFriends db i ↔ ∃ s', (j, s', g) ∈ db.inputs := by
  obtain ⟨b, hb, rfl, -, rfl⟩ := mem_inputs.mp h
  rw [mem_buildInputFriends hb]
  constructor
  · rintro ⟨c, hc, hg, rfl⟩
    exact ⟨_, mem_inputs.mpr ⟨c, hc, rfl, rfl, hg⟩⟩
  · rintro ⟨s', hj⟩
    obtain ⟨c, hc, rfl, -, hg⟩ := mem_inputs.mp hj
    exact ⟨c, hc, hg, rfl⟩

/-- The friends depend on nothing but the identities of the build inputs. -/
lemma buildInputFriends_of_inputs {db db' : Db} (h : db'.inputs = db.inputs) (id : ℕ) :
    buildInputFriends db' id = buildInputFriends db id := by
  have hfriends (db : Db) : buildInputFriends db id = (db.inputs.filter fun x =>
      ((db.inputs.filter fun y => y.1 == id).map (·.2.2.url)).contains x.2.2.url &&
      ((db.inputs.filter fun y => y.1 == id).map (·.2.2.backend)).contains x.2.2.backend &&
      ((db.inputs.filter fun y => y.1 == id).map (·.2.2.architecture)).contains
        x.2.2.architecture).map (·.1) := by
    simp only [buildInputFriends, Db.inputs, List.filter_map, List.map_map, Function.comp_def,
      BuildInput.identity, BuildInput.group]
  rw [hfriends, hfriends, h]

lemma hasQueuedFriend_iff {db : Db} {i s : ℕ} {g : Group} (h : (i, s, g) ∈ db.inputs) :
    hasQueuedFriend db i = true ↔
      ∃ q ∈ db.queue.rows, ∃ s', (q.buildInputId, s', g) ∈ db.inputs := by
  simp only [hasQueuedFriend, List.any_eq_true, List.contains_iff_mem,
    mem_buildInputFriends_iff h]

lemma self_mem_buildInputFriends {db : Db} {b : BuildInput} (hb : b ∈ db.buildInputs.rows) :
    b.id ∈ buildInputFriends db b.id :=
  (mem_buildInputFriends hb).mpr ⟨b, hb, rfl, rfl⟩

/-- Giving up on friends of which none is queued leaves the queue as it is. -/
lemma markNonRetriable_of_none_queued {db : Db} {id : ℕ} (h : hasQueuedFriend db id = false) :
    (markBuildInputFriendsAsNonRetriable db id).queue = db.queue ∧
      (markBuildInputFriendsAsNonRetriable db id).inputs = db.inputs := by
  refine ⟨Table.ext (List.filter_eq_self.mpr fun q hq => ?_) rfl, setNextRetry_inputs _ _ _⟩
  have := List.any_eq_false.mp h q hq
  simpa using this

/-- If no friend is queued, an upsert inserts a new row. -/
lemma upsertQueued_of_none_queued {db : Db} {id s : ℕ} {g : Group} (hid : (id, s, g) ∈ db.inputs)
    (h : hasQueuedFriend db id = false) (priority : Priority) (now : Time) :
    (NewQueued.upsert ⟨id, priority, now⟩ db).queue =
      db.queue.insert (NewQueued.row ⟨id, priority, now⟩) := by
  rcases NewQueued.upsert_cases ⟨id, priority, now⟩ db with ⟨q, hq, hqid, -⟩ | ⟨-, heq⟩
  · have hfriend : hasQueuedFriend db id = true :=
      (hasQueuedFriend_iff hid).mpr ⟨q, hq, s, hqid ▸ hid⟩
    rw [h] at hfriend
    cases hfriend
  · exact heq

end Rebuilderd.Daemon
