import RefinetPillars.LineText
import RefinetPillars.RestartBudget

/-!
# The onion address of a Pillar

A Pillar runs Tor beside itself and has Tor make a hidden service, whose
private key it stores.  While Tor is monitored, it is started again where it
has died.
-/

namespace RefinetPillars

namespace TorManager

open HexText LineText RunHistory RestartBudget

section Manager

structure Config where
  torEnabled : Bool := false
  port : Int := 7070
  standardPort : Int := 70
  torExposePort70 : Bool := true

/-- A private key as Tor prints it. -/
structure PrivateKey where
  text : Text
  trimmed : strip text = text
  nonblank : text ≠ []

structure Manager where
  torProcess : Bool := false
  controller : Bool := false
  onionAddress : Option Text := none
  restartCount : Nat := 0

def Manager.isActive (manager : Manager) : Bool :=
  manager.onionAddress.isSome

/-- A manager, and the text of the file of its private key. -/
structure State where
  manager : Manager
  privkeyFile : Option Text

/-- How far Tor gets when it is started. -/
inductive Launch where
  | unavailable
  | notLaunched
  | notConnected
  | notAuthenticated
  | running

/-- How the file of the key is written. -/
inductive Write where
  | done
  | chmodRefused
  | unopened
  | cut (written : Text)

/-- What happens when a hidden service is made: whether the file of the key can
be read, whether Tor accepts, and the key that it makes up where it is to. -/
structure Creation where
  unreadable : Bool
  accepted : Bool
  fresh : PrivateKey
  write : Write

structure Request where
  ports : List (Int × Int)
  keyType : Text
  keyContent : Text

structure Result where
  serviceId : Text
  privateKey : Option Text

/-- The name that Tor gives to the service of a private key. -/
structure Service where
  idOf : Text → Text

variable (service : Service) (config : Config)

/-- Tor makes up a key where none is given, and returns it. -/
def Service.create (request : Request) (creation : Creation) : Option Result :=
  if !creation.accepted then none
  else if request.keyType = "NEW".toList then
    some ⟨service.idOf creation.fresh.text, some creation.fresh.text⟩
  else some ⟨service.idOf request.keyContent, none⟩

def start (launch : Launch) (manager : Manager) : Manager × Bool :=
  if !config.torEnabled then (manager, false)
  else
    match launch with
    | .unavailable | .notLaunched => (manager, false)
    | .notConnected => ({ manager with torProcess := true }, false)
    | .notAuthenticated =>
        ({ manager with torProcess := true, controller := true }, false)
    | .running =>
        ({ manager with torProcess := true, controller := true }, true)

def loadPersistedPrivkey (file : Option Text) : Option Text := file.map strip

/-- What is in the file then, and whether no exception is raised. -/
def persistPrivkey (write : Write) (privkey : Text) (file : Option Text) :
    Option Text × Bool :=
  match write with
  | .done => (some privkey, true)
  | .chmodRefused => (some privkey, false)
  | .unopened => (file, false)
  | .cut written => (some written, false)

def portMappings : List (Int × Int) :=
  if config.torExposePort70 ∧ config.standardPort ≠ config.port then
    [(config.port, config.port), (config.standardPort, config.standardPort)]
  else [(config.port, config.port)]

def requestOf (privkey : Text) : Request where
  ports := portMappings config
  keyType := if privkey ≠ [] then "ED25519-V3".toList else "NEW".toList
  keyContent := if privkey ≠ [] then privkey else "ED25519-V3".toList

/-- The address is shown before the key has been stored. -/
def createHiddenServices (creation : Creation) (state : State) :
    State × Option Text :=
  if !state.manager.controller ||
      state.privkeyFile.isSome && creation.unreadable then (state, none)
  else
    let privkey := (loadPersistedPrivkey state.privkeyFile).getD []
    match service.create (requestOf config privkey) creation with
    | none => (state, none)
    | some result =>
        let onion := result.serviceId ++ ".onion".toList
        let manager := { state.manager with onionAddress := some onion }
        let key := result.privateKey.getD []
        if privkey = [] ∧ key ≠ [] then
          let (file, stored) :=
            persistPrivkey creation.write key state.privkeyFile
          (⟨manager, file⟩, if stored then some onion else none)
        else (⟨manager, state.privkeyFile⟩, some onion)

/-- Whether the process can be killed; where it cannot, nothing is reset. -/
def stop (killRaises : Bool) (manager : Manager) : Manager × Bool :=
  if manager.torProcess && killRaises then (manager, false)
  else
    ({ manager with
      torProcess := false, controller := false, onionAddress := none }, true)

def maxRestartAttempts : Nat := 3

structure Restart where
  killRaises : Bool
  launch : Launch
  creation : Creation

/-- A restart that is within the budget, and whether it succeeds. -/
def restart (attempt : Restart) (state : State) : State × Bool :=
  let counted :=
    { state.manager with restartCount := state.manager.restartCount + 1 }
  match stop attempt.killRaises counted with
  | (manager, false) => ({ state with manager }, false)
  | (manager, true) =>
      match start config attempt.launch manager with
      | (manager, false) => ({ state with manager }, false)
      | (manager, true) =>
          match createHiddenServices service config attempt.creation
              { state with manager } with
          | (next, none) => (next, false)
          | (next, some _) =>
              ({ next with manager.restartCount := 0 }, true)

def attemptRestart (attempt : Restart) (state : State) : State :=
  if maxRestartAttempts ≤ state.manager.restartCount then state
  else (restart service config attempt state).1

/-- What a check of Tor meets. -/
structure Check where
  infoRaises : Bool
  restart : Restart

/-- Tor does not answer, or has no hidden service. -/
def findsDead (check : Check) (state : State) : Bool :=
  if state.manager.controller && state.manager.isActive then check.infoRaises
  else config.torEnabled && !state.manager.isActive

/-- One round of the loop in `check_tor_health`. -/
def checkTorHealth (check : Check) (state : State) : State :=
  if findsDead config check state then
    attemptRestart service config check.restart state
  else state

end Manager

section Lives

variable (service : Service)

/-- A Pillar, the address that it announces, and whether Tor is monitored. -/
structure Pillar where
  config : Config := {}
  tor : State
  announced : Option Text := none
  monitored : Bool := false

inductive Input where
  | boot (config : Config) (launch : Launch) (creation : Creation)
  | check (found : Check)
  | shutdown (killRaises : Bool)

/-- A new process has a new manager, and the file of the one before. -/
def boot (config : Config) (launch : Launch) (creation : Creation)
    (file : Option Text) : Pillar :=
  match start config launch {} with
  | (manager, false) => { config, tor := ⟨manager, file⟩ }
  | (manager, true) =>
      match createHiddenServices service config creation ⟨manager, file⟩ with
      | (tor, none) => { config, tor }
      | (tor, some onion) =>
          { config, tor, announced := some onion, monitored := true }

def Input.apply (input : Input) (pillar : Pillar) : Pillar :=
  match input with
  | .boot config launch creation =>
      TorManager.boot service config launch creation pillar.tor.privkeyFile
  | .check found =>
      if pillar.monitored then
        { pillar with
          tor := checkTorHealth service pillar.config found pillar.tor }
      else pillar
  | .shutdown killRaises =>
      { pillar with tor.manager := (stop killRaises pillar.tor.manager).1 }

end Lives

section Addresses

variable {service : Service} {config : Config}

/-- The file has the key of an address, and no other address is shown. -/
structure Keyed (service : Service) (onion : Text) (tor : State) : Prop where
  stored : ∃ privkey, loadPersistedPrivkey tor.privkeyFile = some privkey ∧
    privkey ≠ [] ∧ onion = service.idOf privkey ++ ".onion".toList
  shown : ∀ other, tor.manager.onionAddress = some other → other = onion

theorem Keyed.withManager {onion : Text} {tor : State}
    (keyed : Keyed service onion tor) {manager : Manager}
    (shown : manager.onionAddress = none ∨
      manager.onionAddress = tor.manager.onionAddress) :
    Keyed service onion { tor with manager } where
  stored := keyed.stored
  shown other isOther := by
    rcases shown with blank | same
    · cases blank.symm.trans isOther
    · exact keyed.shown other (same.symm.trans isOther)

theorem onionAddress_start (config : Config) (launch : Launch)
    (manager : Manager) :
    (start config launch manager).1.onionAddress = manager.onionAddress := by
  unfold start
  split
  · rfl
  · cases launch <;> rfl

theorem onionAddress_stop (killRaises : Bool) (manager : Manager) :
    (stop killRaises manager).1.onionAddress = none ∨
      (stop killRaises manager).1.onionAddress = manager.onionAddress := by
  unfold stop
  split
  · exact .inr rfl
  · exact .inl rfl

/-- The service of a stored key has the address of that key. -/
theorem create_stored {privkey : Text} (nonblank : privkey ≠ [])
    (creation : Creation) :
    service.create (requestOf config privkey) creation =
      if creation.accepted then some ⟨service.idOf privkey, none⟩
      else none := by
  have key : requestOf config privkey =
      ⟨portMappings config, "ED25519-V3".toList, privkey⟩ := by
    simp [requestOf, nonblank]
  rw [key, Service.create]
  cases creation.accepted <;> simp

theorem create_new (creation : Creation) :
    service.create (requestOf config []) creation =
      if creation.accepted then
        some ⟨service.idOf creation.fresh.text, some creation.fresh.text⟩
      else none := by
  have key : requestOf config [] =
      ⟨portMappings config, "NEW".toList, "ED25519-V3".toList⟩ := rfl
  rw [key, Service.create]
  cases creation.accepted <;> simp

/-- What making a service does: nothing, showing the address of the stored key,
or making up a key. -/
inductive Created (service : Service) (creation : Creation) (state : State) :
    State × Option Text → Prop where
  | refused : Created service creation state (state, none)
  | stored {privkey : Text}
      (isStored : loadPersistedPrivkey state.privkeyFile = some privkey)
      (nonblank : privkey ≠ []) :
      Created service creation state
        (⟨{ state.manager with
            onionAddress := some (service.idOf privkey ++ ".onion".toList) },
          state.privkeyFile⟩,
          some (service.idOf privkey ++ ".onion".toList))
  | made (onion : Text)
      (isOnion : onion = service.idOf creation.fresh.text ++ ".onion".toList)
      (blank : (loadPersistedPrivkey state.privkeyFile).getD [] = []) :
      Created service creation state
        (⟨{ state.manager with onionAddress := some onion },
          (persistPrivkey creation.write creation.fresh.text
            state.privkeyFile).1⟩,
          if (persistPrivkey creation.write creation.fresh.text
            state.privkeyFile).2 then some onion else none)

theorem created (service : Service) (config : Config) (creation : Creation)
    (state : State) :
    Created service creation state
      (createHiddenServices service config creation state) := by
  unfold createHiddenServices
  split
  · exact .refused
  · dsimp only
    generalize isKey :
      (loadPersistedPrivkey state.privkeyFile).getD [] = privkey
    by_cases blank : privkey = []
    · subst blank
      rw [create_new]
      cases creation.accepted with
      | false => exact .refused
      | true =>
          have asked : ([] : Text) = [] ∧ creation.fresh.text ≠ [] :=
            ⟨rfl, creation.fresh.nonblank⟩
          rw [if_pos rfl]
          dsimp only [Option.getD_some]
          rw [if_pos asked]
          exact .made _ rfl isKey
    · rw [create_stored blank]
      cases creation.accepted with
      | false => exact .refused
      | true =>
          have known : ¬ (privkey = [] ∧ ([] : Text) ≠ []) :=
            fun both => blank both.1
          rw [if_pos rfl]
          dsimp only [Option.getD_none]
          rw [if_neg known]
          refine .stored ?_ blank
          cases stored : loadPersistedPrivkey state.privkeyFile with
          | none =>
              rw [stored] at isKey
              exact absurd isKey.symm blank
          | some text =>
              rw [stored] at isKey
              exact congrArg some isKey

/-- An address that is returned is that of the key in the file. -/
theorem keyed_of_created {creation : Creation} {state : State} {onion : Text}
    {after : State × Option Text} (made : Created service creation state after)
    (returned : after.2 = some onion) : Keyed service onion after.1 := by
  cases made with
  | refused => cases returned
  | stored isStored nonblank =>
      obtain rfl := Option.some.inj returned
      exact ⟨⟨_, isStored, nonblank, rfl⟩, fun other shown =>
        (Option.some.inj shown).symm⟩
  | made shown isOnion blank =>
      have fresh := creation.fresh
      dsimp only at returned ⊢
      cases written : creation.write with
      | done =>
          rw [written] at returned
          obtain rfl := Option.some.inj returned
          exact ⟨⟨_, congrArg some creation.fresh.trimmed,
            creation.fresh.nonblank, isOnion⟩, fun other shown =>
              (Option.some.inj shown).symm⟩
      | chmodRefused | unopened | cut =>
          rw [written] at returned
          cases returned

/-- Where the file has the key of an address, no other is made. -/
theorem Keyed.created {creation : Creation} {state : State} {onion : Text}
    {after : State × Option Text} (keyed : Keyed service onion state)
    (made : Created service creation state after) :
    Keyed service onion after.1 ∧
      ∀ other, after.2 = some other → other = onion := by
  obtain ⟨privkey, isStored, nonblank, isOnion⟩ := keyed.stored
  cases made with
  | refused => exact ⟨keyed, fun other returned => by cases returned⟩
  | stored isKey _ =>
      rw [isStored] at isKey
      obtain rfl := Option.some.inj isKey
      subst isOnion
      exact ⟨⟨⟨_, isStored, nonblank, rfl⟩, fun other shown =>
        (Option.some.inj shown).symm⟩, fun other returned =>
          (Option.some.inj returned).symm⟩
  | made shown isOther blank =>
      rw [isStored] at blank
      exact absurd blank nonblank

theorem Keyed.restart {attempt : Restart} {state : State} {onion : Text}
    (keyed : Keyed service onion state) :
    Keyed service onion (TorManager.restart service config attempt state).1 := by
  unfold TorManager.restart
  have stopped := onionAddress_stop attempt.killRaises
    { state.manager with restartCount := state.manager.restartCount + 1 }
  dsimp only
  split
  next manager isManager =>
    rw [isManager] at stopped
    exact keyed.withManager stopped
  next manager isManager =>
    rw [isManager] at stopped
    have started := onionAddress_start config attempt.launch manager
    split
    next running isRunning =>
      rw [isRunning] at started
      exact keyed.withManager (started ▸ stopped)
    next running isRunning =>
      rw [isRunning] at started
      have whole : Keyed service onion ⟨running, state.privkeyFile⟩ :=
        keyed.withManager (started ▸ stopped)
      have made := whole.created
        (TorManager.created service config attempt.creation _)
      split
      next next isNext =>
        rw [isNext] at made
        exact made.1
      next next shown isNext =>
        rw [isNext] at made
        exact made.1.withManager (.inr rfl)

theorem Keyed.checkTorHealth {check : Check} {state : State} {onion : Text}
    (keyed : Keyed service onion state) :
    Keyed service onion
      (TorManager.checkTorHealth service config check state) := by
  unfold TorManager.checkTorHealth attemptRestart
  split
  · split
    · exact keyed
    · exact keyed.restart
  · exact keyed

/-- The file of a Pillar that announces an address has its key. -/
def Announces (service : Service) (onion : Text) (pillar : Pillar) : Prop :=
  Keyed service onion pillar.tor ∧
    ∀ other, pillar.announced = some other → other = onion

theorem boot_cases (service : Service) (config : Config) (launch : Launch)
    (creation : Creation) (file : Option Text) :
    let pillar := boot service config launch creation file
    (pillar.announced = none ∧ pillar.tor.manager.onionAddress = none ∧
      pillar.tor.privkeyFile = file) ∨
    ∃ state after, state.privkeyFile = file ∧
      state.manager.onionAddress = none ∧
      Created service creation state after ∧
      pillar.tor = after.1 ∧ pillar.announced = after.2 := by
  have started := onionAddress_start config launch {}
  unfold boot
  dsimp only
  split
  next manager isManager =>
    rw [isManager] at started
    exact .inl ⟨rfl, started, rfl⟩
  next manager isManager =>
    rw [isManager] at started
    refine .inr ⟨⟨manager, file⟩, _, rfl, started,
      TorManager.created service config creation _, ?_⟩
    split
    next tor isTor => exact ⟨(congrArg Prod.fst isTor).symm, by rw [isTor]⟩
    next tor onion isTor =>
      exact ⟨(congrArg Prod.fst isTor).symm, by rw [isTor]⟩

theorem announces_boot {onion : Text} (launch : Launch) (creation : Creation)
    (file : Option Text)
    (announced : (boot service config launch creation file).announced =
      some onion) :
    Announces service onion (boot service config launch creation file) := by
  rcases boot_cases service config launch creation
    file with ⟨silent, -⟩ | ⟨state, after, -, -, made, isTor, isAnnounced⟩
  · cases silent.symm.trans announced
  · refine ⟨isTor ▸ keyed_of_created made (isAnnounced ▸ announced), ?_⟩
    intro other shown
    exact Option.some.inj (shown.symm.trans announced)

theorem Announces.apply {onion : Text} {pillar : Pillar}
    (announces : Announces service onion pillar) (input : Input) :
    Announces service onion (input.apply service pillar) := by
  obtain ⟨keyed, only⟩ := announces
  cases input with
  | boot config launch creation =>
      change Announces service onion
        (TorManager.boot service config launch creation pillar.tor.privkeyFile)
      rcases boot_cases service config launch creation
        pillar.tor.privkeyFile with ⟨silent, blank, sameFile⟩ |
          ⟨state, after, sameFile, blank, made, isTor, isAnnounced⟩
      · refine ⟨⟨?_, ?_⟩, ?_⟩
        · rw [sameFile]
          exact keyed.stored
        · intro other shown
          cases blank.symm.trans shown
        · intro other shown
          cases silent.symm.trans shown
      · have before : Keyed service onion state :=
          ⟨sameFile ▸ keyed.stored, fun other shown => by
            cases blank.symm.trans shown⟩
        obtain ⟨keyed, only⟩ := before.created made
        exact ⟨isTor ▸ keyed, isAnnounced ▸ only⟩
  | check found =>
      unfold Input.apply
      dsimp only
      split
      · exact ⟨keyed.checkTorHealth, only⟩
      · exact ⟨keyed, only⟩
  | shutdown killRaises =>
      exact ⟨keyed.withManager (onionAddress_stop killRaises _), only⟩

/-- A Pillar that does not run, whose file may have any text. -/
def Pillar.down (file : Option Text) : Pillar where
  tor := ⟨{}, file⟩

/-- What a Pillar announces at some moment is what the key in its file says. -/
theorem announces_run {onion : Text} (file : Option Text)
    (inputs : List Input)
    (announced : (run (Input.apply service) (.down file) inputs).announced =
      some onion) :
    Announces service onion (run (Input.apply service) (.down file) inputs) := by
  induction inputs with
  | nil => cases announced
  | cons input inputs ih =>
      rw [run_cons] at announced ⊢
      cases input with
      | boot config launch creation =>
          exact announces_boot launch creation _ announced
      | check found =>
          have same : (run (Input.apply service) (.down file) inputs).announced =
              some onion := by
            unfold Input.apply at announced
            dsimp only at announced
            split at announced
            · exact announced
            · exact announced
          exact (ih same).apply (.check found)
      | shutdown killRaises => exact (ih announced).apply (.shutdown killRaises)

/-- Once a Pillar announces an onion address, no later moment shows or
announces another: not after Tor has been restarted, nor in a later process. -/
theorem onion_kept (file : Option Text) (later earlier : List Input)
    {onion : Text}
    (announced : (run (Input.apply service) (.down file) earlier).announced =
      some onion) :
    let pillar := run (Input.apply service) (.down file) (later ++ earlier)
    (∀ other, pillar.tor.manager.onionAddress = some other → other = onion) ∧
      ∀ other, pillar.announced = some other → other = onion := by
  have announces : Announces service onion
      (run (Input.apply service) (.down file) (later ++ earlier)) := by
    induction later with
    | nil => exact announces_run file earlier announced
    | cons input later ih => exact ih.apply input
  exact ⟨announces.1.shown, announces.2⟩

def spelledService : Service := ⟨fun privkey => 's' :: privkey⟩

def madeKey : PrivateKey := ⟨['a'], by decide, by decide⟩

def otherKey : PrivateKey := ⟨['b'], by decide, by decide⟩

/-- Two processes, between which the key of the first has been stored. -/
theorem onion_kept_rebooted :
    let pillar := run (Input.apply spelledService) (.down none)
      [.boot { torEnabled := true } .running ⟨false, true, otherKey, .done⟩,
        .boot { torEnabled := true } .running ⟨false, true, madeKey, .done⟩]
    (∀ other, pillar.tor.manager.onionAddress = some other →
        other = "sa.onion".toList) ∧
      ∀ other, pillar.announced = some other → other = "sa.onion".toList :=
  onion_kept none
    [.boot { torEnabled := true } .running ⟨false, true, otherKey, .done⟩]
    [.boot { torEnabled := true } .running ⟨false, true, madeKey, .done⟩] rfl

end Addresses

section Restarts

variable {service : Service} {config : Config}

/-- A check that restarts Tor, and whether a hidden service is made then. -/
def attempt (service : Service) (config : Config) (check : Check)
    (state : State) : Option Bool :=
  if findsDead config check state then
    if maxRestartAttempts ≤ state.manager.restartCount then none
    else some (restart service config check.restart state).2
  else none

theorem restartCount_start (config : Config) (launch : Launch)
    (manager : Manager) :
    (start config launch manager).1.restartCount = manager.restartCount := by
  unfold start
  split
  · rfl
  · cases launch <;> rfl

theorem restartCount_stop (killRaises : Bool) (manager : Manager) :
    (stop killRaises manager).1.restartCount = manager.restartCount := by
  unfold stop
  split <;> rfl

theorem restartCount_created {creation : Creation} {state : State}
    {after : State × Option Text}
    (made : Created service creation state after) :
    after.1.manager.restartCount = state.manager.restartCount := by
  cases made <;> rfl

theorem isActive_created {creation : Creation} {state : State} {onion : Text}
    {after : State × Option Text}
    (made : Created service creation state after)
    (returned : after.2 = some onion) : after.1.manager.isActive = true := by
  cases made with
  | refused => cases returned
  | stored | made => rfl

/-- A restart that fails is counted, and one that succeeds ends the count. -/
theorem restart_cases (service : Service) (config : Config)
    (attempt : Restart) (state : State) :
    let after := restart service config attempt state
    after.2 = false ∧
        after.1.manager.restartCount = state.manager.restartCount + 1 ∨
      after.2 = true ∧ after.1.manager.restartCount = 0 ∧
        after.1.manager.isActive = true := by
  unfold restart
  have stopped := restartCount_stop attempt.killRaises
    { state.manager with restartCount := state.manager.restartCount + 1 }
  dsimp only
  split
  next manager isManager =>
    rw [isManager] at stopped
    exact .inl ⟨rfl, stopped⟩
  next manager isManager =>
    rw [isManager] at stopped
    have started := restartCount_start config attempt.launch manager
    split
    next running isRunning =>
      rw [isRunning] at started
      exact .inl ⟨rfl, started.trans stopped⟩
    next running isRunning =>
      rw [isRunning] at started
      have made := created service config
        attempt.creation { state with manager := running }
      split
      next next isNext =>
        rw [isNext] at made
        exact .inl ⟨rfl, (restartCount_created made).trans
          (started.trans stopped)⟩
      next next onion isNext =>
        rw [isNext] at made
        exact .inr ⟨rfl, rfl, isActive_created made rfl⟩

theorem attempt_eq_some {check : Check} {state : State} {succeeded : Bool}
    (attempted : attempt service config check state = some succeeded) :
    state.manager.restartCount < maxRestartAttempts ∧
      checkTorHealth service config check state =
        (restart service config check.restart state).1 ∧
      (restart service config check.restart state).2 = succeeded := by
  unfold attempt at attempted
  split at attempted
  next dead =>
    split at attempted
    · cases attempted
    next within =>
      refine ⟨Nat.lt_of_not_le within, ?_, Option.some.inj attempted⟩
      rw [checkTorHealth, if_pos dead, attemptRestart, if_neg within]
  next => cases attempted

/-- A check that does not restart Tor does nothing. -/
theorem checkTorHealth_idle {check : Check} {state : State}
    (idle : attempt service config check state = none) :
    checkTorHealth service config check state = state := by
  unfold attempt at idle
  unfold checkTorHealth attemptRestart
  split at idle
  next dead =>
    split at idle
    next spent => rw [if_pos dead, if_pos spent]
    next => cases idle
  next alive => rw [if_neg alive]

theorem budgeted (service : Service) (config : Config) :
    Budgeted (checkTorHealth service config)
      (fun state => state.manager.restartCount) (attempt service config)
      maxRestartAttempts where
  idle none := congrArg (fun state : State => state.manager.restartCount)
    (checkTorHealth_idle none)
  spent failed := by
    obtain ⟨-, same, isFailure⟩ := attempt_eq_some failed
    rcases restart_cases service config _ _ with
      ⟨-, counted⟩ | ⟨isSuccess, -⟩
    · exact (congrArg (fun state : State => state.manager.restartCount)
        same).trans counted
    · cases isSuccess.symm.trans isFailure
  reset succeeded := by
    obtain ⟨-, same, isSuccess⟩ := attempt_eq_some succeeded
    rcases restart_cases service config _ _ with
      ⟨isFailure, -⟩ | ⟨-, counted, -⟩
    · cases isSuccess.symm.trans isFailure
    · exact (congrArg (fun state : State => state.manager.restartCount)
        same).trans counted
  within attempted := (attempt_eq_some attempted).1

theorem restartCount_boot (launch : Launch) (creation : Creation)
    (file : Option Text) :
    (boot service config launch creation file).tor.manager.restartCount = 0 := by
  have started := restartCount_start config launch {}
  unfold boot
  split
  next manager isManager =>
    rw [isManager] at started
    exact started
  next manager isManager =>
    rw [isManager] at started
    have made := created service config creation
      ⟨manager, file⟩
    split
    next tor isTor =>
      rw [isTor] at made
      exact (restartCount_created made).trans started
    next tor onion isTor =>
      rw [isTor] at made
      exact (restartCount_created made).trans started

/-- The checks of a process restart Tor whenever they find it dead, until three
restarts in a row have failed.  After those there is none, however many checks
follow. -/
theorem restarts_budgeted (launch : Launch) (creation : Creation)
    (file : Option Text) (checks : List Check) :
    let start := (boot service config launch creation file).tor
    let tor := run (checkTorHealth service config) start checks
    let made := attempts (checkTorHealth service config) start
      (attempt service config) checks
    tor.manager.restartCount = failedInARow made ∧
      (∀ newer older, made = newer ++ List.replicate 3 false ++ older →
        newer = []) ∧
      ∀ check, findsDead config check tor = true →
        (attempt service config check tor = none ↔
          List.replicate 3 false <+: made) ∧
        (attempt service config check tor = some true →
          (checkTorHealth service config check tor).manager.isActive = true) := by
  intro start tor made
  have fresh : start.manager.restartCount = 0 :=
    restartCount_boot launch creation file
  have counted := (budgeted service config).failures_run fresh checks
  refine ⟨counted, fun newer older split =>
    (budgeted service config).eq_nil_of_attempts (by decide) fresh split, ?_⟩
  intro check dead
  constructor
  · rw [← le_failedInARow_iff, ← counted, attempt, if_pos dead]
    by_cases spent : maxRestartAttempts ≤ tor.manager.restartCount
    · exact iff_of_true (if_pos spent) spent
    · rw [if_neg spent]
      exact iff_of_false (Option.some_ne_none _) spent
  · intro succeeded
    obtain ⟨-, same, isSuccess⟩ := attempt_eq_some succeeded
    rcases restart_cases service config _ _ with
      ⟨isFailure, -⟩ | ⟨-, -, active⟩
    · cases isSuccess.symm.trans isFailure
    · rw [same]
      exact active

end Restarts

end TorManager

end RefinetPillars
