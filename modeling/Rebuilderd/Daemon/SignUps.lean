import Rebuilderd.Daemon.Registry

/-!
Who is served, if the daemon is not open to all: workers that have signed up, with the secret and a
key that are asked for, and that were not removed before they were authenticated.
-/

namespace Rebuilderd.Daemon

open Rebuilderd.Lib Rebuilderd.Common Prog

/-- A worker signs up with this key, and its row is `id`. -/
def SignsUp (cfg : Config) (key : String) (id : ℕ) (e : AnyEvent) : Prop :=
  ∃ r t new w, e.call = .registerWorker r ∧ r.headers.workerKey = some key ∧ signup cfg r = true ∧
    e.toStep = Step.inl ⟨t, .upsertWorker new, .ok w⟩ ∧ w.id = id

/-- The row `id` of the worker with this key is refreshed. -/
def RefreshedAs (key : String) (id : ℕ) (e : AnyEvent) : Prop :=
  ∃ t now w, e.toStep = Step.inl ⟨t, .refreshWorker key now, .ok w⟩ ∧ w.id = id

/-- The row `id` of the workers is deleted. -/
def removes (id : ℕ) (e : AnyEvent) : Bool :=
  match e.stmt with
  | .inl _ => false
  | .inr s => s.id == id

/-- Beyond its authentication, a statement of a request that the worker with this key sends. -/
def actsFor (key : String) (e : AnyEvent) : Bool :=
  match e.call, e.stmt with
  | .serve c, .inl s => c.byWorker && c.worker == key && !s.authenticates
  | .unregisterWorker h _, .inr _ => h.worker == key
  | _, _ => false

/-- The worker with this key has signed up, its row is `id`, and it was not removed since. -/
def SignedUp (cfg : Config) (key : String) (id : ℕ) (tr : List AnyEvent) : Prop :=
  ∃ pre u post, tr = pre ++ u :: post ∧ SignsUp cfg key id u ∧ ∀ e ∈ post, removes id e = false

/-! ### The workers -/

section
variable {env : Env} {cfg : Config} {key : String} {id : ℕ} {tr : List AnyEvent} {e : AnyEvent}

lemma SignedUp.snoc (h : SignedUp cfg key id tr) (he : removes id e = false) :
    SignedUp cfg key id (tr ++ [e]) := by
  obtain ⟨pre, u, post, rfl, hu, hpost⟩ := h
  refine ⟨pre, u, post ++ [e], by simp, hu, fun d hd => ?_⟩
  rcases List.mem_append.mp hd with hd | hd
  · exact hpost d hd
  · rw [List.mem_singleton.mp hd, he]

/-- **Every worker of a daemon that is not open to all has signed up**, and was not removed since. -/
theorem workers_signedUp (hclosed : Handler.openToAll env.config = false)
    (hh : History (execAny env) (anyPermitted env.config) Db.empty tr) :
    ∀ w ∈ (stateAfter (execAny env) Db.empty tr).workers.rows,
      SignedUp env.config w.key w.id tr := by
  refine hh.invariant (I := fun tr db => ∀ w ∈ db.workers.rows, SignedUp env.config w.key w.id tr)
    (fun _ hw => by cases hw) fun {tr e} hh hbefore w' hw' => ?_
  obtain ⟨-, hans, hperm, -⟩ := hh.last
  have hold {key : String} {id : ℕ} (h : HasWorker key id e.before.workers) :
      SignedUp env.config key id tr := by
    obtain ⟨w, hw, rfl, rfl⟩ := h
    exact hbefore w hw
  rcases execAny_kinds hans with ⟨s, hstep, hafter⟩ | ⟨s, hstmt, hafter⟩ <;> rw [hafter] at hw'
  · have hstmt : e.stmt = .inl s := congrArg Step.stmt hstep
    have hkept : removes w'.id e = false := by rw [removes, hstmt]
    by_cases hs : ∃ new, s = .upsertWorker new
    · obtain ⟨new, rfl⟩ := hs
      change w' ∈ (new.upsert e.before).2.workers.rows at hw'
      rcases upsertWorker_kept new e.before with ⟨hrows, -⟩ | ⟨hinsert, hid⟩
      · exact (hold (hrows.row _ _ ⟨w', hw', rfl, rfl⟩)).snoc hkept
      · rw [hinsert] at hw'
        rcases (Table.mem_insert _).mp hw' with hw | rfl
        · exact (hold ⟨w', hw, rfl, rfl⟩).snoc hkept
        · rw [hstmt] at hperm
          rcases hcall : e.call with c | r | ⟨h, id⟩ <;> rw [hcall] at hperm
          · obtain ⟨own₀, -, hp⟩ := hperm
            exact (hp.closed hclosed new rfl).elim
          · exact ⟨tr, e, [], rfl, ⟨r, e.input, new, _, hcall, hperm.1, hperm.2, hstep, hid⟩, by simp⟩
          · obtain ⟨own₀, -, hp, -⟩ := hperm
            exact (hp.closed hclosed new rfl).elim
    · have hrows := exec_workersKept env e.input (fun new h => hs ⟨new, h⟩) e.before
      exact (hold (hrows.row _ _ ⟨w', hw', rfl, rfl⟩)).snoc hkept
  · obtain ⟨hw, hne⟩ := (Table.mem_delete _).mp hw'
    refine (hold ⟨w', hw, rfl, rfl⟩).snoc ?_
    rw [removes, hstmt]
    exact beq_eq_false_iff_ne.mpr (beq_eq_false_iff_ne.mp hne).symm

end

/-! ### The requests of workers -/

/-- **A daemon that is not open to all serves none but workers that have signed up.** Whatever a
request of a worker does, its handler has authenticated the worker by its key before, and before
that, the worker had signed up with that key and was not removed. -/
theorem acts_signedUp (env : Env) (addrs : Addresses) (as : AnySchedule) (key : String)
    (pre post : List AnyEvent) (e : AnyEvent) (hclosed : Handler.openToAll env.config = false)
    (htr : anyTrace env addrs as = pre ++ e :: post) (hacts : actsFor key e = true) :
    ∃ id pre₀ u mid a rest, pre = pre₀ ++ u :: (mid ++ a :: rest) ∧
      SignsUp env.config key id u ∧ (∀ d ∈ mid, removes id d = false) ∧
      a.thread = e.thread ∧ RefreshedAs key id a := by
  have hh := anyTrace_history env addrs as
  rw [htr] at hh
  obtain ⟨-, -, hperm, hcalls⟩ := hh.event
  -- The handler knows of the authentication, and did not write the worker itself.
  obtain ⟨own₀, hown, w, hauth⟩ : ∃ own₀ : OwnSteps, own e.thread pre = own₀.map Step.inl ∧
      Authenticated own₀ key := by
    unfold actsFor at hacts
    rcases hcall : e.call with c | r | ⟨h, id⟩ <;> rcases hstmt : e.stmt with s | s <;>
      rw [hcall, hstmt] at hacts hperm
    · obtain ⟨own₀, hown, hp⟩ := hperm
      simp only [Bool.and_eq_true, beq_iff_eq, Bool.not_eq_true'] at hacts
      obtain ⟨⟨hworker, rfl⟩, hs⟩ := hacts
      exact ⟨own₀, hown, hp.authenticated hworker hs⟩
    · cases hacts
    · cases hacts
    · cases hacts
    · cases hacts
    · obtain ⟨-, own₀, hown, hp⟩ := hperm
      obtain rfl : h.worker = key := beq_iff_eq.mp hacts
      exact ⟨own₀, hown, hp⟩
  have hnew (new : NewWorker) : ¬ Did own₀ (.upsertWorker new) w := by
    intro hdid
    obtain ⟨pre₁, a, rest, rfl, hthread, t, hstep⟩ := did_anyEvent hown hdid
    have hsame := hcalls a (by simp) hthread
    have hh' : History (execAny env) (anyPermitted env.config) Db.empty
        (pre₁ ++ a :: (rest ++ e :: post)) := by simpa using hh
    obtain ⟨-, -, hperm', -⟩ := hh'.event
    have hstmt : a.stmt = .inl (.upsertWorker new) := congrArg Step.stmt hstep
    rw [hstmt, hsame] at hperm'
    unfold actsFor at hacts
    rcases hcall : e.call with c | r | ⟨h, id⟩ <;> rw [hcall] at hacts hperm'
    · obtain ⟨own₁, -, hp⟩ := hperm'
      exact hp.closed hclosed new rfl
    · cases hacts
    · obtain ⟨own₁, -, hp, -⟩ := hperm'
      exact hp.closed hclosed new rfl
  rcases hauth with ⟨now, hdid⟩ | ⟨new, -, hdid⟩
  · obtain ⟨pre₁, a, rest, rfl, hthread, t, hstep⟩ := did_anyEvent hown hdid
    have hh' : History (execAny env) (anyPermitted env.config) Db.empty
        (pre₁ ++ a :: (rest ++ e :: post)) := by simpa using hh
    obtain ⟨hbefore, hans, -, -⟩ := hh'.event
    have hok : exec env a.input (.refreshWorker key now) a.before = .ok (w, _) :=
      Exec.answer_ok.mp (Prod.ext (answer_of_kind hans hstep) rfl)
    obtain ⟨w', hw', hkey, hid⟩ := refreshWorker_old hok
    rw [hbefore] at hw'
    obtain ⟨pre₀, u, mid, rfl, hu, hmid⟩ := workers_signedUp hclosed hh'.of_append w' hw'
    rw [hkey, hid] at hu
    rw [hid] at hmid
    exact ⟨w.id, pre₀, u, mid, a, rest, by simp, hu, hmid, hthread, t, now, w, hstep, rfl⟩
  · exact (hnew new hdid).elim

/-- A daemon that asks for a secret. -/
def secretDaemon : Env where
  config := ⟨"cookie", ⟨[], some "secret"⟩, ⟨none, none, none⟩⟩
  workers := .none
  ties := .inOrder
  zstd := id

def noProxy : Addresses := ⟨none, some⟩

def signupOf (key : String) : SignupRequest :=
  ⟨workerHeaders key, some "secret", fun _ => none, some "10.0.0.1", key⟩

/-- Request number `i` of the run, served at time `t` with nothing in between. -/
def anyServeAt (i : ℕ) (c : AnyCall) (t : Time) : AnySchedule :=
  .call c :: List.replicate 16 (.step i t)

/-- `alice` signs up, a package is imported, and she is handed its job. -/
def signedUpAndHandedOut : AnySchedule :=
  anyServeAt 0 (.registerWorker (signupOf "alice")) 0 ++
  anyServeAt 1 (.serve (.submitPackageReport adminHeaders (debianReport [package "hello" "https://hello"]))) 0 ++
  anyServeAt 2 (.serve (.requestWork (workerHeaders "alice") ⟨["debian"], "amd64", ["amd64"]⟩)) (10 * second)

theorem acts_signedUp_handedOut : ∃ pre e post,
    anyTrace secretDaemon noProxy signedUpAndHandedOut = pre ++ e :: post ∧
      ∃ id pre₀ u mid a rest, pre = pre₀ ++ u :: (mid ++ a :: rest) ∧
        SignsUp secretDaemon.config "alice" id u ∧ (∀ d ∈ mid, removes id d = false) ∧
        a.thread = e.thread ∧ RefreshedAs "alice" id a := by
  have hacts : ((anyTrace secretDaemon noProxy signedUpAndHandedOut)[9]?).map (actsFor "alice") =
      some true := by decide +kernel
  obtain ⟨e, he, hok⟩ := Option.map_eq_some_iff.mp hacts
  exact ⟨_, e, _, eq_take_cons_drop he, acts_signedUp secretDaemon noProxy signedUpAndHandedOut "alice"
    _ _ e rfl (eq_take_cons_drop he) hok⟩

end Rebuilderd.Daemon
