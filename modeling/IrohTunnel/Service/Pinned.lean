/-
**Registrations that root runs: which carry a pin, and which may replace another account's.**

Any number of install requests on one host, one after another.

* `ready_of_planInstall` — the two plans an install comes to: a system one with the pin of its
  target, and a user one without;
* `Pinned.pin_found` — the pin of such a registration is found in its text;
* `root_run_pinned_iff` — what root runs is pinned, and replaces another account's registration only
  with consent, exactly where BusyBox is not asked for a user service by root.
-/

import IrohTunnel.Library.Machine
import IrohTunnel.Service.PinText

namespace IrohTunnel.Service

open IrohTunnel.Library
open IrohTunnel.Ownership (Role)

/-! ### Requests on a host -/

/-- One request, and what the system answers to it. -/
structure InstallLabel where
  request : InstallRequest
  environment : Environment
  calls : Calls

/-- A host on which installs are requested one after another. -/
def installs (backend : Backend) : Machine Host InstallLabel where
  init host := host.writes = []
  step host label :=
    some (installVia backend host label.calls label.request label.environment).2

/-- Whether the backend runs a registration of this scope as root. -/
def RootRun (backend : Backend) (scope : ServiceScope) : Prop :=
  match backend with
  | .systemd | .launchd => scope = .system
  | .busybox => True
  | .windows => False

/-- The registration carries the pin of the account whose verified config it reads, and the one it
replaced is that account's or is named, with this pin, by the request's consent. -/
def Pinned (backend : Backend) (written : Written) : Prop :=
  ∃ target, systemTarget written.calls written.request = .ok (some target) ∧
    (∃ text, Trust.readVerified written.calls.system written.calls.files target.config
      target.account.uid = .ok text) ∧
    written.pin = some target.pin ∧ written.config = target.config ∧
    written.text = registrationText backend written.request.role written.request.tunnelExecutable
      target.config target.state (some target.pin) ∧
    MayReplace written.existing target written.request.retarget

/-- The recorded pin is the one that `Pin::find` reads in the text, where no path starts a line
that would be taken for one. -/
theorem Pinned.pin_found {backend : Backend} {written : Written} (pinned : Pinned backend written) :
    ∃ target, systemTarget written.calls written.request = .ok (some target) ∧
      written.pin = some target.pin ∧
      (NotForged backend written.request.role written.request.tunnelExecutable target.config
        target.state → ∀ text, written.text = some text → Pin.find text = some target.pin) := by
  obtain ⟨target, resolved, -, pin, -, rendered, -⟩ := pinned
  exact ⟨target, resolved, pin, fun notForged text isText =>
    find_registrationText notForged (rendered.symm.trans isText)⟩

/-- Every registration that root runs is pinned. -/
def AllPinned (backend : Backend) (host : Host) : Prop :=
  ∀ written ∈ host.writes, RootRun backend written.scope → Pinned backend written

/-- Not a request by root for a user service of BusyBox, which has none. -/
def Covered (backend : Backend) (label : InstallLabel) : Prop :=
  ¬ (backend = .busybox ∧ decidedScope backend label.request label.environment = .chosen .user ∧
    label.calls.isElevated = true)

/-! ### What an install comes to -/

section Steps

variable {backend : Backend} {calls : Calls} {existing : Option String} {req : InstallRequest}
  {env : Environment} {plan : InstallPlan} {host : Host}

/-- A system install that is ready has its target's pin and may replace what is there. -/
theorem ready_of_planForTarget {target : Target}
    (planned : planForTarget calls existing req target = .ok (.ready plan)) :
    (∃ text, Trust.readVerified calls.system calls.files target.config target.account.uid =
      .ok text) ∧
    plan = { scope := .system, pin := some target.pin, config := target.config,
             state := target.state } ∧
    MayReplace existing target req.retarget := by
  unfold planForTarget at planned
  obtain ⟨-, -, planned⟩ := Lists.bind_eq_ok.mp planned
  obtain ⟨-, -, planned⟩ := Lists.bind_eq_ok.mp planned
  obtain ⟨text, read, planned⟩ := Lists.bind_eq_ok.mp planned
  obtain ⟨-, -, planned⟩ := Lists.bind_eq_ok.mp planned
  split at planned
  · cases planned
  · rename_i proceeds
    cases planned
    exact ⟨⟨text, read⟩, rfl, retargetDecision_eq_proceed.mp proceeds⟩

/-- The two plans that an install comes to. -/
theorem ready_of_planInstall
    (planned : planInstall backend calls existing req env = .ok (.ready plan)) :
    (decidedScope backend req env = .chosen .system ∧
      ∃ target, systemTarget calls req = .ok (some target) ∧
        planForTarget calls existing req target = .ok (.ready plan)) ∨
    (decidedScope backend req env = .chosen .user ∧ plan.scope = .user ∧ plan.pin = none) := by
  unfold planInstall at planned
  split at planned
  · cases planned
  · split at planned
    · cases planned
    · rename_i scope chosen
      obtain ⟨-, -, planned⟩ := Lists.bind_eq_ok.mp planned
      cases scope with
      | system =>
        rw [if_pos rfl] at planned
        obtain ⟨-, -, planned⟩ := Lists.bind_eq_ok.mp planned
        obtain ⟨target, resolved, planned⟩ := Lists.bind_eq_ok.mp planned
        cases target with
        | none =>
          simp only at planned
          split at planned <;> cases planned
        | some target => exact .inl ⟨chosen, target, resolved, planned⟩
      | user =>
        rw [if_neg (by decide)] at planned
        obtain ⟨given, -, planned⟩ := Lists.bind_eq_ok.mp planned
        obtain ⟨config, -, planned⟩ := Lists.bind_eq_ok.mp planned
        obtain ⟨state, -, planned⟩ := Lists.bind_eq_ok.mp planned
        obtain ⟨-, -, planned⟩ := Lists.bind_eq_ok.mp planned
        obtain ⟨-, -, planned⟩ := Lists.bind_eq_ok.mp planned
        obtain ⟨-, -, planned⟩ := Lists.bind_eq_ok.mp planned
        cases planned
        exact .inr ⟨chosen, rfl, rfl⟩

/-- What one install writes: nothing, or the registration of its plan. -/
theorem writes_of_installVia :
    (installVia backend host calls req env).2.writes = host.writes ∨
    ∃ plan path, planInstall backend calls (existingRegistration backend host calls req.role) req
        env = .ok (.ready plan) ∧
      registrationPath backend req.role plan.scope calls.homeDir = .ok path ∧
      (backend = .busybox → calls.isElevated = true) ∧
      (installVia backend host calls req env).2.writes = host.writes ++
        [{ path, scope := plan.scope, config := plan.config, pin := plan.pin
           text := registrationText backend req.role req.tunnelExecutable plan.config plan.state
             plan.pin
           existing := host.read calls path, request := req, calls }] := by
  unfold installVia
  split
  · exact .inl rfl
  · exact .inl rfl
  · rename_i plan planned
    show (backendInstall backend host calls req plan).2.writes = _ ∨ _
    simp only [backendInstall]
    split
    · exact .inl rfl
    · exact .inl rfl
    · rename_i path allowed found
      split
      · exact .inl rfl
      · refine .inr ⟨plan, path, planned, found, fun busybox => ?_, rfl⟩
        rw [if_pos busybox] at allowed
        unfold requireRoot at allowed
        split at allowed
        · assumption
        · cases allowed

/-- The registration that one install wrote is pinned exactly when the request is covered. -/
theorem pinned_iff_covered {label : InstallLabel} {written : Written}
    (wrote : (installVia backend host label.calls label.request label.environment).2.writes =
      host.writes ++ [written]) :
    (RootRun backend written.scope → Pinned backend written) ↔ Covered backend label := by
  rcases writes_of_installVia with same | ⟨plan, path, planned, found, root, appended⟩
  · rw [same] at wrote
    simp at wrote
  · rw [appended] at wrote
    obtain rfl := List.singleton_inj.mp (List.append_cancel_left wrote)
    rcases ready_of_planInstall planned with ⟨chosen, target, resolved, planned⟩ |
      ⟨chosen, scope, unpinned⟩
    · obtain ⟨read, rfl, mayReplace⟩ := ready_of_planForTarget planned
      have sameExisting : existingRegistration backend host label.calls label.request.role =
          host.read label.calls path := by
        simp only [existingRegistration, found]
      refine iff_of_true
        (fun _ => ⟨target, resolved, read, rfl, rfl, rfl, sameExisting ▸ mayReplace⟩) ?_
      rintro ⟨-, isUser, -⟩
      rw [chosen] at isUser
      cases isUser
    · cases backend with
      | busybox =>
        refine iff_of_false (fun pinned => ?_) (not_not_intro ⟨rfl, chosen, root rfl⟩)
        obtain ⟨target, -, -, pin, -⟩ := pinned trivial
        simp only [unpinned] at pin
        cases pin
      | systemd =>
        refine iff_of_true (fun isRoot => ?_) (fun uncovered => by cases uncovered.1)
        exact absurd (scope.symm.trans isRoot) (by decide)
      | launchd =>
        refine iff_of_true (fun isRoot => ?_) (fun uncovered => by cases uncovered.1)
        exact absurd (scope.symm.trans isRoot) (by decide)
      | windows =>
        exact iff_of_true (fun isRoot => isRoot.elim) (fun uncovered => by cases uncovered.1)

end Steps

/-- **Root-run registrations, exactly.** In every run of installs whose requests are all covered,
each registration written that root runs is pinned, and it replaced another account's only with
consent; and the registration that an install writes is so exactly when the request is covered. -/
theorem root_run_pinned_iff (backend : Backend) :
    (∀ start final labels, (installs backend).init start →
      (installs backend).run start labels = some final →
      (installs backend).Meets (fun _ label => Covered backend label) start labels →
        AllPinned backend final) ∧
    (∀ host after label written, (installs backend).step host label = some after →
      after.writes = host.writes ++ [written] →
        ((RootRun backend written.scope → Pinned backend written) ↔ Covered backend label)) := by
  constructor
  · intro start final labels initial ran met
    have begins : ∀ host, (installs backend).init host → AllPinned backend host := by
      intro host empty written member
      rw [show host.writes = [] from empty] at member
      cases member
    have keeps : ∀ host label next, AllPinned backend host → Covered backend label →
        (installs backend).step host label = some next → AllPinned backend next := by
      intro host label next holds covered stepped written member
      cases stepped
      rcases writes_of_installVia with same | ⟨_, _, _, _, _, appended⟩
      · exact holds written (same ▸ member)
      · have exactly := pinned_iff_covered appended
        rw [appended] at member
        rcases List.mem_append.mp member with before | last
        · exact holds written before
        · rw [List.mem_singleton.mp last]
          exact exactly.mpr covered
    exact (installs backend).invariant_of_meets begins keeps initial met ran
  · intro host after label written stepped wrote
    cases stepped
    exact pinned_iff_covered wrote

/-! ### A system install for alice -/

open OsString (encode)

/-- A schema reader to which every config is the default one. -/
def anyToml : Config.Toml where
  parse _ := .ok { root := [] }
  toText _ := ""
  readServe _ := .ok {}
  readAccess _ := .ok {}

/-- What the system answers to root, on a host where alice's config is reached through a link. -/
def rootCalls : Calls where
  byName name := if name = "alice" then some ⟨"alice", 1000, encode "/home/alice"⟩ else none
  canonicalize path := .ok (if path = encode "/" then path else encode "/tmp/serve.toml")
  toml := anyToml
  defaultConfig := .error (.other [])
  defaultState := .error (.other [])
  currentDir := .error ""
  tierLiveness _ _ := .ok .notRunning
  readToString _ := .ok ""
  present _ := true
  files := Trust.tmpFiles
  isElevated := true
  homeDir := none

/-- `sudo iroh-tunnel serve service install --system` by alice. -/
def installForAlice : InstallLabel where
  request := {
    role := .serve, tunnelExecutable := encode "/opt/iroh-tunnel", scope := some .system
    sudoUser := some "alice", stateDirOverride := some (encode "/") }
  environment := { elevated := true, canAnswer := false }
  calls := rootCalls

theorem root_run_pinned_alice :
    ∃ final, (installs .systemd).run { registrations := fun _ => none } [installForAlice] =
        some final ∧
      final.writes.map Written.pin = [some { config := encode "/tmp/serve.toml", uid := 1000 }] ∧
      AllPinned .systemd final := by
  refine ⟨_, rfl, by rfl, (root_run_pinned_iff .systemd).1
    { registrations := fun _ => none } _ [installForAlice] rfl rfl ⟨?_, fun next _ => trivial⟩⟩
  rintro ⟨busybox, -⟩
  cases busybox

/-! ### A user install by root on BusyBox -/

/-- `iroh-tunnel serve service install --user` by root, with a config of its choice. -/
def installByRoot : InstallLabel where
  request := {
    role := .serve, tunnelExecutable := encode "/opt/iroh-tunnel", scope := some .user
    config := some (encode "/root/serve.toml"), stateDirOverride := some (encode "/root/state") }
  environment := { elevated := true, canAnswer := false }
  calls := rootCalls

/-- A BusyBox host whose script is pinned to another account. -/
def pinnedHost : Host where
  registrations _ := some (Busybox.formatScript "serve" (encode "/opt/iroh-tunnel")
    (encode "/home/alice/serve.toml") (encode "/home/alice/state")
    (some { config := encode "/home/alice/serve.toml", uid := 1000 }))

/-- On BusyBox a user install by root replaces a pinned script with one without a pin. -/
theorem user_install_unpinned :
    ¬ ∀ (backend : Backend) (start final : Host) (labels : List InstallLabel),
      (installs backend).init start → (installs backend).run start labels = some final →
        AllPinned backend final := by
  intro claimed
  have all := claimed .busybox pinnedHost _ [installByRoot] rfl rfl
  have written : ∃ written, written ∈ (installVia .busybox pinnedHost rootCalls
      installByRoot.request installByRoot.environment).2.writes ∧ written.pin = none :=
    ⟨_, List.mem_singleton_self _, rfl⟩
  obtain ⟨written, member, unpinned⟩ := written
  obtain ⟨target, -, -, pin, -⟩ := all written member trivial
  rw [unpinned] at pin
  cases pin

end IrohTunnel.Service
