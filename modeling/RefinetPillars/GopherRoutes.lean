import RefinetPillars.HexText
import RefinetPillars.RouteTable

/-!
# The routes of the Gopher server

One function answers every selector.  Two gates refuse routes, on a public
Pillar and on the standard port; a table of branches runs a handler or serves
a file.
-/

namespace RefinetPillars

namespace GopherRoutes

open HexText RouteTable

/-- The handlers of dynamic routes. -/
inductive Handler where
  | root
  | about
  | network
  | dapps
  | dappDetail
  | directory
  | releases
  | download
  | pillarSetup
  | welcome
  | directoryJson
  | statusJson
  | pillarStatus
  | auth
  | authChallenge
  | authVerify
  | rpc
  | rpcBalance
  | rpcToken
  | rpcGas
  | rpcBroadcast
  | proofReceipt
  | pid
  | transactions
  | peers
  | ledger
  | search
  | identity
  | identityJson
  | identityV3
  | wellKnown
  | identityVerify
  | vault
  | settings
  | sync
  | health
  | healthServices
  | readiness
  | readinessInstall
  | zkpChallenge
  | zkpVerify
deriving DecidableEq

/-- What a branch does. -/
inductive Branch where
  | run (handler : Handler)
  | serveStatic
  | serveHole
deriving DecidableEq

def equals (text : String) : Pattern Char := .oneOf [text.toList]

def startsWith (text : String) : Pattern Char := .startsWith text.toList

/-- The branches before the route of the search. -/
def branchesBeforeSearch : List (Pattern Char × Branch) :=
  [(.oneOf [[], ['/']], .run .root),
    (equals "/about", .run .about),
    (equals "/network", .run .network),
    (equals "/dapps", .run .dapps),
    (.enclosed "/dapps/".toList ".dapp".toList, .run .dappDetail),
    (equals "/directory", .run .directory),
    (equals "/releases", .run .releases),
    (equals "/download", .run .download),
    (startsWith "/download/", .serveStatic),
    (equals "/pillar-setup", .run .pillarSetup),
    (equals "/welcome", .run .welcome),
    (equals "/directory.json", .run .directoryJson),
    (equals "/status.json", .run .statusJson),
    (equals "/pillar/status", .run .pillarStatus),
    (equals "/auth", .run .auth),
    (startsWith "/auth/challenge", .run .authChallenge),
    (startsWith "/auth/verify", .run .authVerify),
    (equals "/rpc", .run .rpc),
    (startsWith "/rpc/balance", .run .rpcBalance),
    (startsWith "/rpc/token", .run .rpcToken),
    (startsWith "/rpc/gas", .run .rpcGas),
    (startsWith "/rpc/broadcast", .run .rpcBroadcast),
    (startsWith "/proof/receipt", .run .proofReceipt),
    (equals "/pid", .run .pid),
    (equals "/transactions", .run .transactions),
    (equals "/peers", .run .peers),
    (equals "/ledger", .run .ledger)]

/-- The branches after the route of the search. -/
def branchesAfterSearch : List (Pattern Char × Branch) :=
  [(equals "/identity", .run .identity),
    (equals "/identity.json", .run .identityJson),
    (equals "/identity/v3.json", .run .identityV3),
    (equals "/.well-known/refinet.json", .run .wellKnown),
    (equals "/identity/verify", .run .identityVerify),
    (equals "/vault", .run .vault),
    (equals "/settings", .run .settings),
    (equals "/sync", .run .sync),
    (equals "/health", .run .health),
    (equals "/health/services", .run .healthServices),
    (equals "/onboarding/readiness", .run .readiness),
    (startsWith "/onboarding/readiness/install", .run .readinessInstall),
    (startsWith "/auth/zkp-challenge", .run .zkpChallenge),
    (startsWith "/auth/zkp-verify", .run .zkpVerify),
    (startsWith "/holes/", .serveHole)]

def searchRoute : Text := "/search".toList

/-- The branches in the order of the source. -/
def branches : List (Pattern Char × Branch) :=
  branchesBeforeSearch ++
    (.startsWith searchRoute, .run .search) :: branchesAfterSearch

def refinetRoutes : List Text :=
  ["/auth".toList, "/rpc".toList, "/pid".toList, "/transactions".toList,
    "/peers".toList, "/ledger".toList, "/network".toList,
    "/directory.json".toList, "/status.json".toList, searchRoute,
    "/pillar/status".toList, "/identity".toList, "/identity.json".toList,
    "/identity/verify".toList, "/identity/v3.json".toList, "/vault".toList,
    "/settings".toList, "/sync".toList, "/health".toList,
    "/health/services".toList, "/onboarding/readiness".toList,
    "/proof".toList]

def privateRoutes : List Text :=
  ["/auth".toList, "/rpc".toList, "/vault".toList, "/settings".toList,
    "/sync".toList]

/-- On a public Pillar. -/
def privateGate : Gate Char := ⟨privateRoutes, ['/', '?', Char.ofNat 9]⟩

/-- On the standard port. -/
def refinetGate : Gate Char := ⟨refinetRoutes, ['/', '?']⟩

structure Server where
  publicMode : Bool
  isRefinet : Bool
  /-- Whether a selector is a directory with a gophermap. -/
  hasGophermap : Text → Bool

inductive Answer where
  | refused (message : String)
  | ran (handler : Handler)
  | static (selector : Text)
deriving DecidableEq

/-- The branch of a selector, where nothing refuses it. -/
def dispatch (hasGophermap : Text → Bool) (selector : Text) : Answer :=
  match firstMatch branches selector with
  | some (.run handler) => .ran handler
  | some .serveStatic => .static selector
  | some .serveHole =>
      if hasGophermap selector then .static (selector ++ "/gophermap".toList)
      else .static selector
  | none => .static selector

/-- `_route`. -/
def route (server : Server) (selector : Text) : Answer :=
  if server.publicMode = true ∧ privateGate.Refuses selector then
    .refused "Not available on a public Pillar. Administer it locally."
  else if server.isRefinet = false ∧ refinetGate.Refuses selector then
    .refused "REFInet feature. Connect on port 7070 for full access."
  else dispatch server.hasGophermap selector

/-- What the branch of a handler compares a selector with. -/
def Handler.fronts (handler : Handler) : List Text :=
  match branches.find? fun entry => entry.2 = .run handler with
  | some (.oneOf texts, _) => texts
  | some (.startsWith front, _) => [front]
  | some (.enclosed front _, _) => [front]
  | none => []

/-- A handler belongs to a route when its branch is that route, or below. -/
def Handler.Belongs (handler : Handler) (route : Text) : Prop :=
  ∃ front ∈ handler.fronts, front = route ∨ route ++ ['/'] <+: front

instance (handler : Handler) (route : Text) :
    Decidable (handler.Belongs route) :=
  inferInstanceAs (Decidable (∃ front ∈ handler.fronts,
    front = route ∨ route ++ ['/'] <+: front))

/-- A branch runs a handler that belongs to one of the routes. -/
def Branch.Runs (routes : List Text) : Branch → Prop
  | .run handler => ∃ route ∈ routes, handler.Belongs route
  | .serveStatic | .serveHole => False

instance (routes : List Text) (branch : Branch) :
    Decidable (branch.Runs routes) :=
  match branch with
  | .run handler =>
      inferInstanceAs (Decidable (∃ route ∈ routes, handler.Belongs route))
  | .serveStatic | .serveHole => inferInstanceAs (Decidable False)

/-- The route of the search, followed by nothing or by a separator that the gate
knows. -/
def SearchSeparated (selector : Text) : Prop :=
  selector = searchRoute ∨ searchRoute ++ ['/'] <+: selector ∨
    searchRoute ++ ['?'] <+: selector

section Dispatch

variable {server : Server} {selector : Text} {handler : Handler}

theorem dispatch_eq_ran {hasGophermap : Text → Bool}
    (answered : dispatch hasGophermap selector = .ran handler) :
    firstMatch branches selector = some (.run handler) := by
  rw [dispatch] at answered
  split at answered
  next found =>
    cases answered
    exact found
  next => cases answered
  next => split at answered <;> cases answered
  next => cases answered

/-- A handler runs when neither gate refuses and the table has its branch
first. -/
theorem route_eq_ran (answered : route server selector = .ran handler) :
    ¬ (server.publicMode = true ∧ privateGate.Refuses selector) ∧
      ¬ (server.isRefinet = false ∧ refinetGate.Refuses selector) ∧
      firstMatch branches selector = some (.run handler) := by
  rw [route] at answered
  split at answered
  · cases answered
  next notPrivate =>
    split at answered
    · cases answered
    next notRefinet =>
      exact ⟨notPrivate, notRefinet, dispatch_eq_ran answered⟩

/-- All branches of private routes are behind the gate of a public Pillar. -/
theorem covered_private : ∀ entry ∈ branches, entry.2.Runs privateRoutes →
    entry.1.Covered privateGate := by
  decide +kernel

/-- So are those of other routes on the standard port, except the search. -/
theorem covered_refinet :
    ∀ entry ∈ branchesBeforeSearch ++ branchesAfterSearch,
      entry.2.Runs refinetRoutes → entry.1.Covered refinetGate := by
  decide +kernel

theorem refuses_search_iff (searches : searchRoute <+: selector) :
    refinetGate.Refuses selector ↔ SearchSeparated selector := by
  have apart : ∀ route ∈ refinetGate.routes, route ≠ searchRoute →
      Incomparable route searchRoute := by
    decide
  constructor
  · intro refused
    obtain ⟨-, same | ⟨separator, separatorMem, separated⟩⟩ :=
      refused.of_start apart searches
    · exact .inl same
    · simp only [refinetGate, List.mem_cons, List.not_mem_nil, or_false]
        at separatorMem
      rcases separatorMem with rfl | rfl
      · exact .inr (.inl separated)
      · exact .inr (.inr separated)
  · intro separated
    have routeMem : searchRoute ∈ refinetGate.routes := by decide
    rcases separated with same | slash | query
    · exact ⟨searchRoute, routeMem, .inl same⟩
    · exact ⟨searchRoute, routeMem, .inr ⟨'/', by decide, slash⟩⟩
    · exact ⟨searchRoute, routeMem, .inr ⟨'?', by decide, query⟩⟩

theorem not_private_of_search (searches : searchRoute <+: selector) :
    ¬ privateGate.Refuses selector := by
  have apart : ∀ route ∈ privateGate.routes, route ≠ searchRoute →
      Incomparable route searchRoute := by
    decide
  intro refused
  have listed : searchRoute ∉ privateGate.routes := by decide
  exact listed (refused.of_start apart searches).1

/-- A search that no gate refuses is run. -/
theorem firstMatch_search (searches : searchRoute <+: selector) :
    firstMatch branches selector = some (.run .search) := by
  have apart : ∀ entry ∈ branchesBeforeSearch, entry.1.Apart searchRoute := by
    decide
  rw [branches, firstMatch_append apart searches]
  exact firstMatch_cons searches

/-- What gets past the gate of the standard port is a search. -/
theorem refuses_of_runs (separated : searchRoute <+: selector →
      SearchSeparated selector)
    (runs : firstMatch branches selector = some (.run handler))
    (belongs : ∃ route ∈ refinetRoutes, handler.Belongs route) :
    refinetGate.Refuses selector := by
  obtain ⟨pattern, member, found⟩ := exists_entry runs
  rw [branches, List.mem_append, List.mem_cons] at member
  rcases member with before | isSearch | after
  · exact (covered_refinet _ (List.mem_append_left _ before) belongs).refuses
      found
  · obtain ⟨rfl, -⟩ := Prod.mk.inj isSearch
    exact (refuses_search_iff found).mpr (separated found)
  · exact (covered_refinet _ (List.mem_append_right _ after) belongs).refuses
      found

end Dispatch

section StandardPort

/-- No handler of a REFInet route runs on the standard port; what would run on
the other port is refused, or a file is served. -/
structure PortGated (publicMode : Bool) (hasGophermap : Text → Bool)
    (selector : Text) : Prop where
  unreached : ∀ handler,
    route ⟨publicMode, false, hasGophermap⟩ selector = .ran handler →
    ∀ refinetRoute ∈ refinetRoutes, ¬ handler.Belongs refinetRoute
  answered : ∀ handler, ∀ refinetRoute ∈ refinetRoutes,
    handler.Belongs refinetRoute →
    route ⟨publicMode, true, hasGophermap⟩ selector = .ran handler →
    (∃ message, route ⟨publicMode, false, hasGophermap⟩ selector =
      .refused message) ∨
    ∃ served, route ⟨publicMode, false, hasGophermap⟩ selector = .static served

/-- The gate is complete but for searches with another separator. -/
theorem portGated_iff (publicMode : Bool) (hasGophermap : Text → Bool)
    (selector : Text) :
    PortGated publicMode hasGophermap selector ↔
      (searchRoute <+: selector → SearchSeparated selector) := by
  constructor
  · intro gated searches
    by_contra unseparated
    have runs : route ⟨publicMode, false, hasGophermap⟩ selector =
        .ran .search := by
      rw [route, if_neg fun refused =>
          not_private_of_search searches refused.2,
        if_neg fun refused =>
          unseparated ((refuses_search_iff searches).mp refused.2),
        dispatch, firstMatch_search searches]
    exact gated.unreached _ runs searchRoute (by decide) (by decide)
  · intro separated
    constructor
    · intro handler ran refinetRoute routeMem belongs
      obtain ⟨-, passed, runs⟩ := route_eq_ran ran
      exact passed ⟨rfl, refuses_of_runs separated runs
        ⟨refinetRoute, routeMem, belongs⟩⟩
    · intro handler refinetRoute routeMem belongs ran
      obtain ⟨-, -, runs⟩ := route_eq_ran ran
      have refused := refuses_of_runs separated runs
        ⟨refinetRoute, routeMem, belongs⟩
      left
      rw [route]
      split
      · exact ⟨_, rfl⟩
      · rw [if_pos ⟨rfl, refused⟩]
        exact ⟨_, rfl⟩

/-- A tab after the route of the search gets past the gate. -/
theorem portGated_tab :
    ¬ ∀ (publicMode : Bool) (hasGophermap : Text → Bool) (selector : Text),
      PortGated publicMode hasGophermap selector := by
  intro claimed
  have gated := claimed false (fun _ => false)
    (searchRoute ++ Char.ofNat 9 :: "query".toList)
  exact gated.unreached .search (by decide) searchRoute (by decide) (by decide)

end StandardPort

end GopherRoutes

end RefinetPillars
