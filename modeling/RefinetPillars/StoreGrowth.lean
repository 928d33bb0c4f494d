import RefinetPillars.ArchiveDatabase
import RefinetPillars.GopherRoutes
import RefinetPillars.KeyedTable
import RefinetPillars.ServiceReceipts
import RefinetPillars.SiweSession

/-!
# What requests write

Every request is routed, counted and indexed.  A Pillar has one table for each
kind of row that requests may leave.
-/

namespace RefinetPillars

namespace StoreGrowth

open HexText KeyRecovery ContentSigning JsonText KeyedTable
open ArchiveDatabase (DailyRow)
open ServiceReceipts (Ledger Moment handleReceipt)
open GopherRoutes (Handler Server route privateRoutes)

section Calendar

/-- The year and the day of the year that a clock shows. -/
structure LocalDay where
  year : Int
  dayOfYear : Nat
  first : 1 ≤ dayOfYear
  last : dayOfYear ≤ 366

/-- A day, a month and a year. -/
abbrev AccountingDate := Int × Int × Int

def accountingDaysPerMonth : Nat := 28

def getAccountingDate (today : LocalDay) : AccountingDate :=
  if today.dayOfYear > 364 then (28, 13, today.year)
  else
    let zeroDay := today.dayOfYear - 1
    ((zeroDay % accountingDaysPerMonth : Nat) + 1,
      (zeroDay / accountingDaysPerMonth : Nat) + 1, today.year)

end Calendar

section Tables

/-- A row of the table `content_index`. -/
structure ContentRow where
  selector : Text
  contentType : Text
  contentHash : Text
  signature : Text
  pid : Text
  sizeBytes : Nat

/-- The tables of the live database that requests may write. -/
structure Store where
  dailyTx : List Json
  dailyMetrics : Table DailyRow.key
  contentIndex : Table ContentRow.selector
  serviceProofs : Ledger
  siwe : SiweSession.Tables

/-- The number of rows of all these tables. -/
def Store.rowCount (store : Store) : Nat :=
  store.dailyTx.length + store.dailyMetrics.rows.length +
    store.contentIndex.rows.length + store.serviceProofs.rows.length +
    store.siwe.nonces.rows.length + store.siwe.sessions.rows.length

def Store.empty : Store :=
  ⟨[], .empty, .empty, .empty, .empty⟩

/-- A row of a day of which nothing is known. -/
def newDay (date : AccountingDate) (pid : Text) : DailyRow where
  day := date.1
  month := date.2.1
  year := date.2.2
  pid := pid
  totalTxCount := 0
  totalVolume := 0
  avgLatencyMs := 0
  peersConnected := 0
  contentServed := 0
  requestsServed := 0
  uptimeSeconds := 0

def incrementRequestsServed (pid : Text) (today : LocalDay) (store : Store) :
    Store :=
  { store with
    dailyMetrics := store.dailyMetrics.upsert
      { newDay (getAccountingDate today) pid with requestsServed := 1 }
      ⟨fun row => { row with requestsServed := row.requestsServed + 1 },
        fun _ => rfl⟩ }

def updateDailyMetrics (pid : Text) (contentServed uptimeSeconds : Nat)
    (today : LocalDay) (store : Store) : Store :=
  { store with
    dailyMetrics := store.dailyMetrics.upsert
      { newDay (getAccountingDate today) pid with
        contentServed := contentServed
        uptimeSeconds := uptimeSeconds }
      ⟨fun row =>
        { row with
          contentServed := contentServed
          uptimeSeconds := uptimeSeconds }, fun _ => rfl⟩ }

/-- The creator and the type of a row that exists stay. -/
def indexContent (row : ContentRow) (store : Store) : Store :=
  { store with
    contentIndex := store.contentIndex.upsert row
      ⟨fun old =>
        { old with
          contentHash := row.contentHash
          signature := row.signature
          sizeBytes := row.sizeBytes }, fun _ => rfl⟩ }

end Tables

section Serving

/-- A handler acts for the operator or shows the operator's data. -/
def IsPrivate (handler : Handler) : Prop :=
  ∃ route ∈ privateRoutes, handler.Belongs route

instance decidableIsPrivate (handler : Handler) :
    Decidable (IsPrivate handler) :=
  inferInstanceAs (Decidable (∃ route ∈ privateRoutes, handler.Belongs route))

/-- A Pillar: its keys, its gates, how it shows refusals and receipts, the pages
of handlers that only read the store, its files, and what private handlers do.
A page is missing where an exception is raised. -/
structure Pillar where
  env : ServiceReceipts.Environment
  pid : Text
  privateKey : List UInt8
  server : Server
  errorResponse : Text → Text
  receiptPage : ServiceReceipts.Answer → Text
  page : Handler → Text → Option (Store → Text)
  serveStatic : Text → Option Text
  runPrivate : Handler → Text → Store → Option Text × Store

/-- A request, with what is read while it is served: the clock, by the intake
of receipts and by each of the two writes of metrics, and the counters of the
process. -/
structure Request where
  selector : Text
  moment : Moment
  countedOn : LocalDay
  updatedOn : LocalDay
  requestCount : Nat
  uptimeSeconds : Nat

variable (pillar : Pillar)

/-- The body of an answer, if there is one, and the store afterwards. -/
def runRoute (request : Request) (store : Store) : Option Text × Store :=
  match route pillar.server request.selector with
  | .refused message => (some (pillar.errorResponse message.toList), store)
  | .static selector => (pillar.serveStatic selector, store)
  | .ran handler =>
      if IsPrivate handler then
        pillar.runPrivate handler request.selector store
      else if handler = .proofReceipt then
        match handleReceipt pillar.env pillar.pid
          ⟨request.selector, request.moment⟩ store.serviceProofs with
        | (_, .unhandled) => (none, store)
        | (ledger, answer) =>
            (some (pillar.receiptPage answer),
              { store with serviceProofs := ledger })
      else
        ((pillar.page handler request.selector).map fun page => page store,
          store)

/-- `selector or "/"`. -/
def indexed (selector : Text) : Text :=
  if selector = [] then ['/'] else selector

def contentTypeOf (response : Text) : Text :=
  if response.head? = some 'i' ∨ response.head? = some '1' then "menu".toList
  else "text".toList

def contentRow (selector response : Text) : ContentRow where
  selector := indexed selector
  contentType := contentTypeOf response
  contentHash := hashContent pillar.env.scheme (encodeUtf8 response)
  signature := signContent pillar.env.scheme (encodeUtf8 response)
    pillar.privateKey
  pid := pillar.pid
  sizeBytes := (encodeUtf8 response).length

/-- `respond`, without the trailer of the answer.  An exception of a route
leaves nothing behind. -/
def respond (request : Request) (store : Store) : Option Text × Store :=
  match runRoute pillar request store with
  | (none, store) => (none, store)
  | (some response, store) =>
      (some response,
        indexContent (contentRow pillar request.selector response)
          (updateDailyMetrics pillar.pid request.requestCount
            request.uptimeSeconds request.updatedOn
            (incrementRequestsServed pillar.pid request.countedOn store)))

/-- The store after requests, one after the other. -/
def serve (requests : List Request) (store : Store) : Store :=
  requests.foldl (fun store request => (respond pillar request store).2) store

end Serving

end StoreGrowth

end RefinetPillars
