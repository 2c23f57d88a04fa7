/-!
# The journal

While a program runs it writes a journal: it enters and leaves spans, logs events, and measures. The
journal is a list of entries in the order they were written. What a reader wants to know is a view
of it: the events with the spans around them, the counters, and the samples.
-/

namespace ReferenceMint.Journal

/-- How serious an event is. -/
inductive Level where
  /-- A step. -/
  | trace
  /-- A detail of how something was done. -/
  | debug
  /-- Something that was done. -/
  | info
  /-- Something that went wrong and was coped with. -/
  | warn
  /-- Something that went wrong. -/
  | error
deriving DecidableEq

/-- The name of a level. -/
def Level.text : Level → String
  | .trace => "TRACE"
  | .debug => "DEBUG"
  | .info => "INFO"
  | .warn => "WARN"
  | .error => "ERROR"

/-- The value of a field. -/
inductive Value where
  | number (n : Int)
  | text (s : String)
deriving DecidableEq

/-- Names with their values. -/
abbrev Fields := List (String × Value)

/-- A stretch of work. -/
structure Span where
  /-- What is done. -/
  name : String
  /-- What it is done with. -/
  fields : Fields
deriving DecidableEq

/-- Something worth logging. -/
structure Event where
  /-- How serious it is. -/
  level : Level
  /-- What happened. -/
  message : String
  /-- The circumstances. -/
  fields : Fields
deriving DecidableEq

/-- What is measured: a name, and labels that tell the measurements under it apart. -/
structure Metric where
  name : String
  /-- The labels with their values. -/
  labels : List (String × String)
deriving DecidableEq

/-- The labels of a metric, with commas between them. -/
def labelChars : List (String × String) → List Char
  | [] => []
  | [(name, value)] => name.toList ++ '=' :: value.toList
  | (name, value) :: rest => name.toList ++ '=' :: value.toList ++ ',' :: labelChars rest

/-- The metric as a text: the name, and the labels between braces. -/
def Metric.text (m : Metric) : String :=
  m.name ++ String.ofList ('\x7b' :: labelChars m.labels ++ ['\x7d'])

/-- An entry of the journal. -/
inductive Entry where
  /-- Work starts, within the work under way. -/
  | enter (span : Span)
  /-- The innermost work under way ends. -/
  | leave
  /-- Something happened. -/
  | event (e : Event)
  /-- The counter of a metric goes up by one. -/
  | count (m : Metric)
  /-- A value was measured. -/
  | sample (m : Metric) (value : Nat)
deriving DecidableEq

/-! ## Views -/

/-- The events with the spans around each, outermost first; `around` are the spans that the first
entry stands in, innermost first. -/
def events (around : List Span) : List Entry → List (Event × List Span)
  | [] => []
  | .enter span :: rest => events (span :: around) rest
  | .leave :: rest => events around.tail rest
  | .event e :: rest => (e, around.reverse) :: events around rest
  | _ :: rest => events around rest

/-- The counted metrics, once for each time. -/
def counted (entries : List Entry) : List Metric :=
  entries.filterMap fun
    | .count m => some m
    | _ => none

/-- The counters. -/
def counters (entries : List Entry) : List (Metric × Nat) :=
  (counted entries).eraseDups.map fun m => (m, (counted entries).count m)

/-- The samples with their metrics. -/
def sampled (entries : List Entry) : List (Metric × Nat) :=
  entries.filterMap fun
    | .sample m value => some (m, value)
    | _ => none

/-- The samples of each metric, in order. -/
def histograms (entries : List Entry) : List (Metric × List Nat) :=
  ((sampled entries).map Prod.fst).eraseDups.map fun m =>
    (m, ((sampled entries).filter fun s => s.1 = m).map Prod.snd)

end ReferenceMint.Journal
