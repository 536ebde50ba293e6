/-!
# Metrics

A run emits metrics under fixed names and labels: counters add up, a gauge keeps its last value, and
a histogram keeps every sample.
-/

namespace Vigil.Metrics

/-- How the values that are emitted for one series are put together by an exporter. -/
inductive Kind where
  | counter
  | gauge
  | histogram
  deriving DecidableEq, Repr

def Kind.name : Kind → String
  | counter => "counter"
  | gauge => "gauge"
  | histogram => "histogram"

/-- The metrics of a run. Every `Emission` belongs to one of these. -/
inductive Metric where
  | phaseDuration
  /-- How many calls became failing records. -/
  | observerFailures
  | observersRegistered
  /-- How many intervals the final timeline has. -/
  | intervals
  /-- How many records there are, by verdict. -/
  | results
  deriving DecidableEq, Repr

namespace Metric

/-- All metrics, in the order in which they are described to an exporter. -/
def all : List Metric := [phaseDuration, observerFailures, observersRegistered, intervals, results]

def name : Metric → String
  | phaseDuration => "watchpost_phase_duration_seconds"
  | observerFailures => "watchpost_observer_failures_total"
  | observersRegistered => "watchpost_observers_registered"
  | intervals => "watchpost_intervals"
  | results => "watchpost_results_total"

/-- The kind of a metric, by which `combine` puts its values together. -/
def kind : Metric → Kind
  | phaseDuration => .histogram
  | observerFailures => .counter
  | observersRegistered => .gauge
  | intervals => .gauge
  | results => .counter

def description : Metric → String
  | phaseDuration => "Wall-clock time of one lifecycle phase across all observers"
  | observerFailures => "Observer phase calls converted into failing result records"
  | observersRegistered => "Number of observers in the flattened registry"
  | intervals => "Number of intervals in the final merged stream"
  | results => "Result records produced, by outcome"

end Metric

def phaseLabel : String := "phase"

def observerLabel : String := "observer"

def kindLabel : String := "kind"

def outcomeLabel : String := "outcome"

/-- The upper bounds of the buckets for durations, in milliseconds. -/
def durationBuckets : List Nat := [10, 50, 100, 500, 1000, 5000, 30000, 60000, 300000, 600000]

/-- A metric with values for its labels. Values are put together series by series. -/
structure Series where
  metric : Metric
  /-- The labels in the order in which they are written. -/
  labels : List (String × String)
  deriving DecidableEq, Repr

/-- The text of a series: the name of its metric, with its labels in braces. -/
def Series.text (s : Series) : String :=
  s.metric.name ++ "\x7b" ++ String.intercalate "," (s.labels.map fun l => l.1 ++ "=" ++ l.2)
    ++ "\x7d"

/-- Something that was emitted: a `value` for a series. Durations are whole milliseconds. -/
structure Emission where
  series : Series
  value : Nat
  deriving DecidableEq, Repr

/-- The emission that says for how long, in `millis`, a phase took. -/
def phaseDuration (phase : String) (millis : Nat) : Emission :=
  ⟨⟨.phaseDuration, [(phaseLabel, phase)]⟩, millis⟩

def observerFailure (observer phase kind : String) : Emission :=
  ⟨⟨.observerFailures, [(observerLabel, observer), (phaseLabel, phase), (kindLabel, kind)]⟩, 1⟩

def observersRegistered (n : Nat) : Emission := ⟨⟨.observersRegistered, []⟩, n⟩

def intervals (n : Nat) : Emission := ⟨⟨.intervals, []⟩, n⟩

/-- The emission that says how many records have the verdict `outcome`. -/
def results (outcome : String) (n : Nat) : Emission :=
  ⟨⟨.results, [(outcomeLabel, outcome)]⟩, n⟩

/-- The values of a series of some `kind` after one more `value`: a counter adds it up, a gauge
keeps it alone, and a histogram keeps all. -/
def combine (kind : Kind) (values : List Nat) (value : Nat) : List Nat :=
  match kind with
  | .counter => [values.foldl Nat.add value]
  | .gauge => [value]
  | .histogram => values ++ [value]

/-- The values of each series that was emitted, in the order of the first emissions. This is what an
exporter sees. -/
def gather (emissions : List Emission) : List (Series × List Nat) :=
  emissions.foldl
    (fun found e =>
      if found.any fun f => f.1 == e.series then
        found.map fun f =>
          if f.1 == e.series then (f.1, combine f.1.metric.kind f.2 e.value) else f
      else found ++ [(e.series, combine e.series.metric.kind [] e.value)])
    []

end Vigil.Metrics
