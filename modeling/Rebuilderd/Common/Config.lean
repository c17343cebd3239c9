import Mathlib.Data.List.AList
import Rebuilderd.Common.Api
import Rebuilderd.Lib.Layers

/-!
The configuration files and how they are layered.

Up to three files are read one after the other, and each updates the configuration that the ones
before it gave, section by section and field by field. A setting has to come from the last file that
sets it.
-/

namespace Rebuilderd.Common

open Rebuilderd.Lib

/-! ### Sections -/

structure HttpConfig where
  bindAddr : Option String
  realIpHeader : Option String
  postBodySizeLimit : Option ℕ
  transparentlySignAttestations : Option Bool
  endpoint : Option String
  permissiveCors : Option Bool

structure AuthConfig where
  cookie : Option String

structure EndpointConfig where
  cookie : String

/-- A configuration file. The order of the endpoints is that of a hash map. -/
structure ConfigFile where
  http : HttpConfig
  auth : AuthConfig
  endpoints : AList fun _ : String => EndpointConfig
  worker : WorkerConfig
  schedule : ScheduleConfig

/-- `ConfigFile::default()` -/
def ConfigFile.default : ConfigFile where
  http := ⟨none, none, none, none, none, none⟩
  auth := ⟨none⟩
  endpoints := ∅
  worker := ⟨[], none⟩
  schedule := ⟨none, none, none⟩

def HttpConfig.update (self c : HttpConfig) : HttpConfig :=
  let self := if c.bindAddr.isSome then { self with bindAddr := c.bindAddr } else self
  let self := if c.realIpHeader.isSome then { self with realIpHeader := c.realIpHeader } else self
  if c.endpoint.isSome then { self with endpoint := c.endpoint } else self

def AuthConfig.update (self c : AuthConfig) : AuthConfig :=
  if c.cookie.isSome then { self with cookie := c.cookie } else self

def EndpointConfig.update (self c : EndpointConfig) : EndpointConfig :=
  { self with cookie := c.cookie }

def WorkerConfig.update (self c : WorkerConfig) : WorkerConfig :=
  let self :=
    if !c.authorizedWorkers.isEmpty then { self with authorizedWorkers := c.authorizedWorkers }
    else self
  if c.signupSecret.isSome then { self with signupSecret := c.signupSecret } else self

def ScheduleConfig.update (self c : ScheduleConfig) : ScheduleConfig :=
  let self :=
    if c.retryDelayBase.isSome then { self with retryDelayBase := c.retryDelayBase } else self
  let self := if c.initialDelay.isSome then { self with initialDelay := c.initialDelay } else self
  if c.maxRetries.isSome then { self with maxRetries := c.maxRetries } else self

/-- The endpoints of a file, one after the other. -/
def updateEndpoint (endpoints : AList fun _ : String => EndpointConfig)
    (e : Σ _ : String, EndpointConfig) : AList fun _ : String => EndpointConfig :=
  match endpoints.lookup e.1 with
  | some o => endpoints.insert e.1 (o.update e.2)
  | none => endpoints.insert e.1 e.2

def ConfigFile.update (self c : ConfigFile) : ConfigFile where
  http := self.http.update c.http
  auth := self.auth.update c.auth
  endpoints := c.endpoints.entries.foldl updateEndpoint self.endpoints
  worker := self.worker.update c.worker
  schedule := self.schedule.update c.schedule

/-! ### Loading -/

/-- The files, each as it was parsed, if it could be read. -/
structure ConfigFiles where
  system : Except Err (Option ConfigFile)
  /-- The file of the user, if there is a directory for it. -/
  user : Option (Except Err (Option ConfigFile))

/-- The file of the system comes first, then the user's. The one that is named on the command line
comes last and has to be there. -/
def load (files : ConfigFiles) (path : Option (Except Err (Option ConfigFile))) :
    Except Err ConfigFile := do
  let config := ConfigFile.default
  let config := match ← files.system with
    | some c => config.update c
    | none => config
  let config ← match files.user with
    | some loaded => do
      match ← loaded with
      | some c => pure (config.update c)
      | none => pure config
    | none => pure config
  match path with
  | some loaded => do
    match ← loaded with
    | some c => return config.update c
    | none => throw .io
  | none => return config

/-- What a file that is read in contributes. -/
def layerOf : Option (Except Err (Option ConfigFile)) → List ConfigFile
  | some (.ok (some c)) => [c]
  | _ => []

/-- The files that are loaded, in their order. -/
def layers (files : ConfigFiles) (path : Option (Except Err (Option ConfigFile))) :
    List ConfigFile :=
  layerOf (some files.system) ++ layerOf files.user ++ layerOf path

lemma load_ok {files : ConfigFiles} {path : Option (Except Err (Option ConfigFile))}
    {config : ConfigFile} (h : load files path = .ok config) :
    config = (layers files path).foldl ConfigFile.update .default := by
  obtain ⟨system, user⟩ := files
  rcases system with e | _ | c <;> rcases user with _ | e | _ | c' <;>
    rcases path with _ | e | _ | c'' <;> cases h <;> rfl

/-! ### Settings -/

/-- What a configuration file can set. -/
inductive Setting
  | bindAddr | realIpHeader | postBodySizeLimit | transparentlySignAttestations | endpoint
  | permissiveCors
  | authCookie
  | endpointCookie (endpoint : String)
  | authorizedWorkers | signupSecret
  | retryDelayBase | maxRetries | initialDelay

namespace Setting

def Value : Setting → Type
  | postBodySizeLimit => ℕ
  | transparentlySignAttestations | permissiveCors => Bool
  | authorizedWorkers => List String
  | retryDelayBase | maxRetries | initialDelay => ℤ
  | _ => String

/-- The value of a setting in a file, if it is set. An empty list of workers sets nothing. -/
def get : (s : Setting) → ConfigFile → Option s.Value
  | bindAddr, c => c.http.bindAddr
  | realIpHeader, c => c.http.realIpHeader
  | postBodySizeLimit, c => c.http.postBodySizeLimit
  | transparentlySignAttestations, c => c.http.transparentlySignAttestations
  | endpoint, c => c.http.endpoint
  | permissiveCors, c => c.http.permissiveCors
  | authCookie, c => c.auth.cookie
  | endpointCookie k, c => (c.endpoints.lookup k).map (·.cookie)
  | authorizedWorkers, c =>
    if c.worker.authorizedWorkers.isEmpty then none else some c.worker.authorizedWorkers
  | signupSecret, c => c.worker.signupSecret
  | retryDelayBase, c => c.schedule.retryDelayBase
  | maxRetries, c => c.schedule.maxRetries
  | initialDelay, c => c.schedule.initialDelay

/-- The settings that `HttpConfig.update` forgets. -/
def forgotten : Setting → Bool
  | postBodySizeLimit | transparentlySignAttestations | permissiveCors => true
  | _ => false

/-- By default nothing is set. -/
lemma get_default (s : Setting) : s.get .default = none := by
  cases s <;> rfl

end Setting

/-- The setting has the value of the last file that sets it, and else its default. -/
def Layered (files : List ConfigFile) (s : Setting) : Prop :=
  s.get (files.foldl ConfigFile.update .default) = (lastSet s.get files).or (s.get .default)

/-! ### Updates -/

lemma HttpConfig.update_eq (self c : HttpConfig) : self.update c =
    { self with
      bindAddr := c.bindAddr.or self.bindAddr
      realIpHeader := c.realIpHeader.or self.realIpHeader
      endpoint := c.endpoint.or self.endpoint } := by
  obtain ⟨bindAddr, realIpHeader, _, _, endpoint, _⟩ := c
  rcases bindAddr with _ | _ <;> rcases realIpHeader with _ | _ <;> rcases endpoint with _ | _ <;> rfl

lemma AuthConfig.update_eq (self c : AuthConfig) : self.update c = ⟨c.cookie.or self.cookie⟩ := by
  obtain ⟨_ | _⟩ := c <;> rfl

lemma WorkerConfig.update_eq (self c : WorkerConfig) : self.update c =
    ⟨if c.authorizedWorkers.isEmpty then self.authorizedWorkers else c.authorizedWorkers,
      c.signupSecret.or self.signupSecret⟩ := by
  obtain ⟨_ | _, _ | _⟩ := c <;> rfl

lemma ScheduleConfig.update_eq (self c : ScheduleConfig) : self.update c =
    ⟨c.retryDelayBase.or self.retryDelayBase, c.maxRetries.or self.maxRetries,
      c.initialDelay.or self.initialDelay⟩ := by
  obtain ⟨_ | _, _ | _, _ | _⟩ := c <;> rfl

lemma lookup_updateEndpoint {endpoints : AList fun _ : String => EndpointConfig}
    {e : Σ _ : String, EndpointConfig} {k : String} :
    (updateEndpoint endpoints e).lookup k = if k = e.1 then some e.2 else endpoints.lookup k := by
  -- An endpoint has a cookie only, so that its update replaces it.
  have hinsert : updateEndpoint endpoints e = endpoints.insert e.1 e.2 := by
    unfold updateEndpoint
    split <;> rfl
  rw [hinsert]
  split
  · rename_i hk
    rw [hk, AList.lookup_insert]
  · rename_i hk
    rw [AList.lookup_insert_ne hk]

lemma lookup_updateEndpoints {es : List (Σ _ : String, EndpointConfig)} (hes : es.NodupKeys)
    {endpoints : AList fun _ : String => EndpointConfig} {k : String} :
    (es.foldl updateEndpoint endpoints).lookup k = (es.dlookup k).or (endpoints.lookup k) := by
  induction es generalizing endpoints with
  | nil => rfl
  | cons e es ih =>
    obtain ⟨hnew, hes⟩ := List.nodupKeys_cons.mp hes
    rw [List.foldl_cons, ih hes, lookup_updateEndpoint]
    by_cases hk : k = e.1
    · subst hk
      rw [List.dlookup_eq_none.mpr hnew, if_pos rfl, List.dlookup_cons_eq]
      rfl
    · rw [if_neg hk, List.dlookup_cons_ne _ _ hk]

namespace Setting

lemma overrides {s : Setting} (h : s.forgotten = false) : Overrides ConfigFile.update s.get := by
  intro a c
  have hhttp := a.http.update_eq c.http
  have hworker := a.worker.update_eq c.worker
  have hschedule := a.schedule.update_eq c.schedule
  cases s with
  | postBodySizeLimit | transparentlySignAttestations | permissiveCors => cases h
  | bindAddr => exact congrArg HttpConfig.bindAddr hhttp
  | realIpHeader => exact congrArg HttpConfig.realIpHeader hhttp
  | endpoint => exact congrArg HttpConfig.endpoint hhttp
  | authCookie => exact congrArg AuthConfig.cookie (a.auth.update_eq c.auth)
  | endpointCookie k =>
    change Option.map _ (AList.lookup k (c.endpoints.entries.foldl updateEndpoint a.endpoints)) = _
    rw [lookup_updateEndpoints c.endpoints.nodupKeys]
    exact Option.map_or
  | authorizedWorkers => obtain ⟨_, _, _, ⟨_ | _, _ | _⟩, _⟩ := c <;> rfl
  | signupSecret => exact congrArg WorkerConfig.signupSecret hworker
  | retryDelayBase => exact congrArg ScheduleConfig.retryDelayBase hschedule
  | maxRetries => exact congrArg ScheduleConfig.maxRetries hschedule
  | initialDelay => exact congrArg ScheduleConfig.initialDelay hschedule

lemma ignores {s : Setting} (h : s.forgotten = true) : Ignores ConfigFile.update s.get := by
  intro a c
  have hhttp := a.http.update_eq c.http
  cases s with
  | postBodySizeLimit => exact (congrArg HttpConfig.postBodySizeLimit hhttp :)
  | transparentlySignAttestations => exact (congrArg HttpConfig.transparentlySignAttestations hhttp :)
  | permissiveCors => exact (congrArg HttpConfig.permissiveCors hhttp :)
  | _ => cases h

end Setting

/-- A loaded configuration has a setting that is not forgotten from the last file that sets it. -/
lemma get_load {files : ConfigFiles} {path : Option (Except Err (Option ConfigFile))}
    {config : ConfigFile} {s : Setting} (h : load files path = .ok config)
    (hs : s.forgotten = false) : s.get config = lastSet s.get (layers files path) := by
  rw [load_ok h, (Setting.overrides hs).get_foldl, s.get_default, Option.or_none]

/-- **A setting is layered exactly if it is not forgotten**, or no file sets it. -/
theorem layered_iff (files : List ConfigFile) (s : Setting) :
    Layered files s ↔ (s.forgotten = true → ∀ c ∈ files, s.get c = none) := by
  rcases h : s.forgotten with _ | _
  · exact iff_of_true (Setting.overrides h).get_foldl (by simp)
  · rw [Layered, (Setting.ignores h).get_foldl_iff s.get_default, lastSet_eq_none]
    simp

/-- **A file that turns off the signing of attestations is ignored.** -/
theorem signingSwitch_ignored : ¬ ∀ (files : List ConfigFile) (s : Setting), Layered files s := by
  intro h
  have hoff := h [{ ConfigFile.default with
    http := { ConfigFile.default.http with transparentlySignAttestations := some false } }]
    .transparentlySignAttestations
  cases hoff

end Rebuilderd.Common
