import Telescope.Metrics.CollectWindow
import Telescope.Rollup.Equivalence

namespace Telescope
namespace Metrics

open Rollup

/-!
# The timeseries service

A query without a tag is answered from the rollups of a store that has them, every other
one from a scan of the entries.  An invalid window and a date out of range are errors.
-/

universe u

namespace EntryType

def Request : Text := "request".toList
def Query : Text := "query".toList
def Job : Text := "job".toList
def Exception : Text := "exception".toList
def Mail : Text := "mail".toList
def Cache : Text := "cache".toList
def HttpClient : Text := "http_client".toList
def Dump : Text := "dump".toList
def Event : Text := "event".toList
def Log : Text := "log".toList
def Model : Text := "model".toList
def Redis : Text := "redis".toList
def Inertia : Text := "inertia".toList
def ClientException : Text := "client_exception".toList
def CpuProfile : Text := "cpu_profile".toList

end EntryType

/-- The metrics of a query that names no type. -/
def BUILTIN_METRICS : List Text :=
  [EntryType.Request, EntryType.Query, EntryType.Job, EntryType.Exception, EntryType.Mail,
    EntryType.Cache, EntryType.HttpClient, EntryType.Dump, EntryType.Event, EntryType.Log,
    EntryType.Model, EntryType.Redis, EntryType.Inertia, EntryType.ClientException,
    EntryType.CpuProfile]

def DEFAULT_BUCKETS : Rat := 60

def MAX_BUCKETS : Int := 500

structure TimeseriesQuery where
  windowMs : Number
  buckets : Option Rat := none
  type : Option Text := none
  tag : Option Text := none

structure TimeseriesResult extends TimeseriesReport where
  scanned : Nat
  truncated : Bool

/-- A store, and its rollups if it has any. -/
structure TimeseriesStore (C : Type u) where
  get : EntryQuery -> Page C
  rollups : Option Rollups

variable {C : Type u}

def TimeseriesQuery.bucketCount (query : TimeseriesQuery) : Int :=
  min MAX_BUCKETS (max 1 ⌊query.buckets.getD DEFAULT_BUCKETS⌋)

/-- The start of the window; none for a window that is not positive and finite, or that
starts out of range. -/
def TimeseriesQuery.windowStart (query : TimeseriesQuery) (windowEnd : TimeValue) : JsDate :=
  if query.windowMs.isFinite && (Number.finite 0).lt query.windowMs then
    newDate (Number.sub (.finite windowEnd.ms) query.windowMs)
  else none

def TimeseriesQuery.metrics (query : TimeseriesQuery) : List Text :=
  match query.type with
  | some type => [type]
  | none => BUILTIN_METRICS

/-- The rollup buckets that cover the window, for the metrics of the query. -/
def fromRollups (rollups : Rollups) (query : TimeseriesQuery) (windowStart windowEnd : TimeValue) :
    Option TimeseriesResult := do
  let buckets := queryRollups rollups query.metrics (floorToBucket windowStart.ms) (floorToBucket windowEnd.ms)
  let report <- timeseriesFromRollups windowStart windowEnd query.bucketCount buckets
  pure { report with scanned := buckets.length, truncated := false }

def TimeseriesQuery.baseQuery (query : TimeseriesQuery) (windowStart : TimeValue) : EntryQuery where
  after := some windowStart.ms
  omitContent := true
  type := query.type
  tag := query.tag

def fromEntries (get : EntryQuery -> Page C) (query : TimeseriesQuery) (windowStart windowEnd : TimeValue)
    (options : WindowReadOptions) : Option TimeseriesResult := do
  let read := Id.run (collectEntriesInWindow (fun query => pure (get query)) (query.baseQuery windowStart) options)
  let report <- bucketTimeseries windowStart windowEnd query.bucketCount read.entries
  pure { report with scanned := read.scanned, truncated := read.truncated }

/-- The answer to a query at the time `windowEnd`; none is an error. -/
def getTimeseries (store : TimeseriesStore C) (options : WindowReadOptions) (query : TimeseriesQuery)
    (windowEnd : TimeValue) : Option TimeseriesResult := do
  let windowStart <- query.windowStart windowEnd
  match store.rollups, query.tag with
  | some rollups, none => fromRollups rollups query windowStart windowEnd
  | _, _ => fromEntries store.get query windowStart windowEnd options

end Metrics
end Telescope
