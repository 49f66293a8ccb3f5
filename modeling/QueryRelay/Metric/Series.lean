import QueryRelay.Metric.Catalogue
import QueryRelay.Table

/-!
# Metrics kept in memory

`SeriesStore` is a metrics sink that keeps everything.  A series is a name with a set of labels: the order of the
labels in a call does not matter, repeated labels do.  Counters add up, gauges keep the last value, and histograms keep
every observation.
-/

namespace QueryRelay

/-- What a series is filed under: a name and labels in ascending order. -/
structure SeriesKey where
  name : String
  labels : Labels
deriving Repr, DecidableEq

/-- Ascending order of labels, by name and then by value. -/
def Labels.before (a b : String × String) : Bool := a.1 < b.1 || (a.1 = b.1 && (a.2 < b.2 || a.2 = b.2))

/-- The series that a call with these labels belongs to. -/
def SeriesKey.of (name : String) (labels : Labels) : SeriesKey := ⟨name, labels.mergeSort Labels.before⟩

/-- Everything a sink was told since it was last emptied. -/
structure SeriesStore where
  counters : Table SeriesKey Binary64
  gauges : Table SeriesKey Binary64
  observations : Table SeriesKey (List Binary64)
deriving Inhabited

namespace SeriesStore

def empty : SeriesStore := ⟨Table.empty, Table.empty, Table.empty⟩

/-- Takes in one call. -/
def record (store : SeriesStore) (e : Emission) : SeriesStore :=
  let key := SeriesKey.of e.name e.labels
  match e.verb with
  | .increment =>
    { store with
      counters := store.counters.insert key ((store.counters.get? key).getD Binary64.zero + e.value) }
  | .set => { store with gauges := store.gauges.insert key e.value }
  | .observe =>
    { store with
      observations := store.observations.insert key ((store.observations.get? key).getD [] ++ [e.value]) }

/-- The entries of a table whose series have this name. -/
def named {α : Type} (table : Table SeriesKey α) (name : String) : List α :=
  (table.entries.filter fun e => e.1.name = name).map Prod.snd

/-- The total of a counter over all label sets. -/
def counter (store : SeriesStore) (name : String) : Binary64 :=
  (named store.counters name).foldl (· + ·) Binary64.zero

/-- The total of a counter for one label set. -/
def counterWith (store : SeriesStore) (name : String) (labels : Labels) : Binary64 :=
  (store.counters.get? (SeriesKey.of name labels)).getD Binary64.zero

/-- The last value of a gauge without labels. -/
def gauge? (store : SeriesStore) (name : String) : Option Binary64 := store.gauges.get? (SeriesKey.of name [])

/-- Every observation under a name, whatever the labels. -/
def observed (store : SeriesStore) (name : String) : List Binary64 := (named store.observations name).flatten

/-- Whether anything was recorded under a name. -/
def contains (store : SeriesStore) (name : String) : Bool :=
  let has := fun (keys : List SeriesKey) => keys.any fun k => k.name = name
  has store.counters.keys || has store.gauges.keys || has store.observations.keys

end SeriesStore

end QueryRelay
