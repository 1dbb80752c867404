import ManagedPrometheus.Decimal
import ManagedPrometheus.Metrics

/-!
# Exposition of metrics

The text under which metrics are scraped. A `Registry` keeps what was counted and whether the
families have been registered; before that nothing is exposed, and what was counted before appears
after. Families are listed by name and their members by the values of their labels; a family without
members is left out.
-/

namespace ManagedPrometheus

/-- An event and how many seconds it took. -/
structure Measurement where
  event : Event
  seconds : Float

/-- What was counted, and whether it is exposed. -/
structure Registry where
  registered : Bool
  measurements : List Measurement

namespace Registry

def empty : Registry := ⟨false, []⟩

/-- Counts an event. -/
def record (registry : Registry) (event : Event) (seconds : Float) : Registry :=
  { registry with measurements := registry.measurements ++ [⟨event, seconds⟩] }

def alreadyRegistered : String := "Duplicate metrics collector registration attempted"

/-- Registers the families, which can be done once. -/
def register (registry : Registry) : Except String Registry :=
  if registry.registered then .error alreadyRegistered
  else .ok { registry with registered := true }

/-- The members of a family that were counted, by the values of their labels. -/
def members (registry : Registry) (family : Family) : List Series :=
  let series := (registry.measurements.flatMap (·.event.series)).filter fun s => s.family = family
  series.eraseDups.mergeSort fun a b => !decide (b.values < a.values)

/-- The seconds that were taken for a series, in their order. -/
def observations (registry : Registry) (series : Series) : List Float :=
  (registry.measurements.filter fun m => m.event.series.contains series).map (·.seconds)

end Registry

/-! ### Texts -/

/-- The text of a value: the fewest digits that stand for it, in positional notation. -/
def valueText (value : Float) : String :=
  let bits := value.toBits.toNat
  let sign := if bits / Nat.pow 2 63 = 1 then "-" else ""
  let exponentBits := bits / Nat.pow 2 52 % Nat.pow 2 11
  let fraction := bits % Nat.pow 2 52
  if exponentBits = 2047 then (if fraction = 0 then sign ++ "inf" else "NaN")
  else if exponentBits = 0 ∧ fraction = 0 then sign ++ "0"
  else sign ++ (RoundingInterval.ofFields exponentBits fraction).shortest.positional

/-- A character inside a label value: backslashes, quotes and line feeds are escaped. -/
def escapeLabel : Char → List Char
  | '\\' => ['\\', '\\']
  | '"' => ['\\', '"']
  | '\n' => ['\\', 'n']
  | c => [c]

def labelText (label : String × String) : String :=
  label.1 ++ "=\"" ++ String.ofList (label.2.toList.flatMap escapeLabel) ++ "\""

/-- One line: a name, labels and a value. -/
def sampleText (name : String) (labels : List (String × String)) (value : String) : String :=
  name ++ "\x7b" ++ String.intercalate "," (labels.map labelText) ++ "\x7d " ++ value ++ "\n"

namespace Series

def labels (series : Series) : List (String × String) := series.family.labels.zip series.values

def counterText (series : Series) (observed : List Float) : String :=
  sampleText series.family.name series.labels (toString observed.length)

/-- The lines of a histogram: for each bound how many observations are up to it, then their sum and
their number. -/
def histogramText (series : Series) (bounds observed : List Float) : String :=
  let name := series.family.name
  let bucket (bound : String) (count : Nat) : String :=
    sampleText (name ++ "_bucket") (series.labels ++ [("le", bound)]) (toString count)
  String.join
    ((bounds.map fun bound =>
        bucket (valueText bound) (observed.filter fun seconds => seconds ≤ bound).length)
      ++ [bucket "+Inf" observed.length,
        sampleText (name ++ "_sum") series.labels (valueText (observed.foldl (· + ·) 0)),
        sampleText (name ++ "_count") series.labels (toString observed.length)])

/-- The lines of a series. -/
def text (series : Series) (observed : List Float) : String :=
  match series.family.buckets with
  | some bounds => series.histogramText bounds observed
  | none => series.counterText observed

end Series

/-- The lines of a family: what it counts, what its members are, and its members. -/
def Family.text (family : Family) (registry : Registry) : String :=
  match registry.members family with
  | [] => ""
  | members =>
    "# HELP " ++ family.name ++ " " ++ family.help ++ "\n"
      ++ "# TYPE " ++ family.name ++ " "
      ++ (if family.isHistogram then "histogram" else "counter") ++ "\n"
      ++ String.join (members.map fun series => series.text (registry.observations series))

/-- The text under which metrics are scraped. -/
def Registry.text (registry : Registry) : String :=
  if registry.registered then String.join (Family.all.map fun family => family.text registry)
  else ""

end ManagedPrometheus
