import RefinetPillars.ContentSigning
import RefinetPillars.JsonText

/-!
# The archive of metrics

Months that are old enough are copied from the table of days into an archive,
one row for a month and one for a year.  Rows with the same key are replaced.
-/

namespace RefinetPillars

namespace ArchiveDatabase

open HexText LineText KeyRecovery ContentSigning JsonText

/-- What the program takes from elsewhere: SHA-256, and how real numbers are
printed. -/
structure Environment where
  scheme : Scheme
  realText : ℚ → Text

section Metrics

/-- A row of the table `daily_metrics`. -/
structure DailyRow where
  day : Int
  month : Int
  year : Int
  pid : Text
  totalTxCount : ℕ
  totalVolume : ℚ≥0
  avgLatencyMs : ℚ
  peersConnected : ℕ
  contentServed : ℕ
  requestsServed : ℕ
  uptimeSeconds : ℕ

def DailyRow.key (row : DailyRow) : Int × Int × Int × Text :=
  (row.day, row.month, row.year, row.pid)

structure Metrics where
  rows : List DailyRow
  unique : (rows.map DailyRow.key).Nodup

/-- A year and a month. -/
abbrev Month := Int × Int

/-- The number of a month since the beginning. -/
def monthTotal (month : Month) : Int := month.1 * 13 + month.2

def DailyRow.inMonth (row : DailyRow) : Month := (row.year, row.month)

/-- The rows of a month. -/
def daily (metrics : Metrics) (pid : Text) (month : Month) : List DailyRow :=
  metrics.rows.filter fun row => row.inMonth = month ∧ row.pid = pid

/-- Years first. -/
def monthLe (first second : Month) : Bool :=
  first.1 < second.1 || (first.1 = second.1 && first.2 ≤ second.2)

/-- The months that have rows, in order. -/
def months (metrics : Metrics) (pid : Text) : List Month :=
  ((metrics.rows.filter fun row => row.pid = pid).map
    DailyRow.inMonth).dedup.mergeSort monthLe

/-- Sums of columns, and the maximum of the numbers of peers. -/
structure Totals where
  txCount : ℕ
  volume : ℚ≥0
  contentServed : ℕ
  uptimeSeconds : ℕ
  requestsServed : ℕ
  peersSeen : ℕ
deriving DecidableEq

def totalsOf (rows : List DailyRow) : Totals where
  txCount := (rows.map DailyRow.totalTxCount).sum
  volume := (rows.map DailyRow.totalVolume).sum
  contentServed := (rows.map DailyRow.contentServed).sum
  uptimeSeconds := (rows.map DailyRow.uptimeSeconds).sum
  requestsServed := (rows.map DailyRow.requestsServed).sum
  peersSeen := (rows.map DailyRow.peersConnected).foldr max 0

/-- `AVG`, or 0. -/
def averageLatency (rows : List DailyRow) : ℚ :=
  (rows.map DailyRow.avgLatencyMs).sum / rows.length

end Metrics

section Archive

variable (env : Environment)

/-- `dict(row)`. -/
def DailyRow.json (row : DailyRow) : Json :=
  .obj [("accounting_day".toList, .int row.day),
    ("accounting_month".toList, .int row.month),
    ("accounting_year".toList, .int row.year),
    ("pid".toList, .str row.pid),
    ("total_tx_count".toList, .int row.totalTxCount),
    ("total_volume".toList, .float (env.realText row.totalVolume)),
    ("avg_latency_ms".toList, .float (env.realText row.avgLatencyMs)),
    ("peers_connected".toList, .int row.peersConnected),
    ("content_served".toList, .int row.contentServed),
    ("requests_served".toList, .int row.requestsServed),
    ("uptime_seconds".toList, .int row.uptimeSeconds)]

/-- What `monthly_snapshot` has of a month. -/
structure Snapshot where
  txCount : ℕ
  volume : ℚ≥0
  snapshotData : Text
  contentHash : Text
  requestsServed : ℕ

def snapshotOf (rows : List DailyRow) : Snapshot :=
  let snapshotData := Json.arr (rows.map (DailyRow.json env))
  { txCount := (totalsOf rows).txCount
    volume := (totalsOf rows).volume
    snapshotData := dumps {} 0 snapshotData
    contentHash := hashContent env.scheme
      (encodeUtf8 (dumps { sortKeys := true } 0 snapshotData))
    requestsServed := (totalsOf rows).requestsServed }

/-- What `yearly_summary` has of a year. -/
structure Summary where
  totals : Totals
  avgLatencyMs : ℚ

def summaryOf (rows : List DailyRow) : Summary :=
  ⟨totalsOf rows, averageLatency rows⟩

/-- The rows by their keys. -/
@[ext]
structure Archive where
  monthly : Month × Text → Option Snapshot
  yearly : Int × Text → Option Summary

def Archive.empty : Archive := ⟨fun _ => none, fun _ => none⟩

def archiveMonthlySnapshot (month : Month) (pid : Text) (snapshot : Snapshot)
    (archive : Archive) : Archive :=
  { archive with
    monthly := Function.update archive.monthly (month, pid) (some snapshot) }

def archiveYearlySummary (year : Int) (pid : Text) (summary : Summary)
    (archive : Archive) : Archive :=
  { archive with
    yearly := Function.update archive.yearly (year, pid) (some summary) }

/-- One round of the loop in `migrate_to_archive`. -/
def archiveMonth (metrics : Metrics) (pid : Text) (archive : Archive)
    (month : Month) : Archive :=
  archiveYearlySummary month.1 pid (summaryOf (daily metrics pid month))
    (archiveMonthlySnapshot month pid (snapshotOf env (daily metrics pid month))
      archive)

def liveDbRetentionMonths : Int := 13

/-- The months that are archived, when the current month has a number. -/
def oldMonths (metrics : Metrics) (pid : Text) (current : Int) : List Month :=
  (months metrics pid).filter fun month =>
    monthTotal month < current - liveDbRetentionMonths

/-- Also returns how many months have been archived. -/
def migrateToArchive (pid : Text) (metrics : Metrics) (current : Int)
    (archive : Archive) : Archive × ℕ :=
  let old := oldMonths metrics pid current
  (old.foldl (archiveMonth env metrics pid) archive, old.length)

end Archive

end ArchiveDatabase

end RefinetPillars
