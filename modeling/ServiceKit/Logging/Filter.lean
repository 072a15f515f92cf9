import ServiceKit.Logging.Severity
import ServiceKit.Number.Numeral
import ServiceKit.Text.Blank
import ServiceKit.Text.Pieces

/-!
# Filters by target

A filter is a list of directives, each with a threshold for the targets that begin with its own.
The directive with the longest target decides; where none matches, nothing passes.  The written form
separates directives by commas, and one malformed directive spoils the whole.
-/

namespace ServiceKit
namespace Logging

namespace Threshold

/-- The threshold with a number from zero to five. -/
def ofNumber? (n : Int) : Option Threshold :=
  if n = 0 then some .off
  else if n = 1 then some (.upTo .error)
  else if n = 2 then some (.upTo .warn)
  else if n = 3 then some (.upTo .info)
  else if n = 4 then some (.upTo .debug)
  else if n = 5 then some (.upTo .trace)
  else none

/-- The threshold with a name in any case of its ASCII letters. -/
def ofName? (cs : List Char) : Option Threshold :=
  let name := cs.map Char.toLower
  if name = "off".toList then some .off
  else if name = "error".toList then some (.upTo .error)
  else if name = "warn".toList then some (.upTo .warn)
  else if name = "info".toList then some (.upTo .info)
  else if name = "debug".toList then some (.upTo .debug)
  else if name = "trace".toList then some (.upTo .trace)
  else none

/-- The threshold that a text names, by number or by name. -/
def read? (cs : List Char) : Option Threshold :=
  match Numeral.read (IntRange.unsigned 64) cs with
  | .ok n => ofNumber? n
  | .error _ => ofName? cs

end Threshold

/-- A threshold for the targets that begin with a text, or for all targets. -/
structure Directive where
  target : Option (List Char)
  threshold : Threshold
  deriving DecidableEq, Repr

namespace Directive

/-- The directive is about this target. -/
def matchesTarget (directive : Directive) (target : List Char) : Bool :=
  match directive.target with
  | none => true
  | some start => start.isPrefixOf target

/-- How narrow a directive is: one for all targets is the widest. -/
def narrowness (directive : Directive) : Nat :=
  match directive.target with
  | none => 0
  | some start => start.length + 1

/-- A character that can begin a directive. -/
def beginsDirective (c : Char) : Bool :=
  c.isAlphanum || c == '-' || c == ':' || c == '_' || 0x80 ≤ c.toNat

/-- Reads a directive: a threshold, a target, or both with an equals sign between them.  A target
alone, or one with nothing behind the sign, lets everything pass. -/
def read? (cs : List Char) : Option Directive :=
  match Text.trim cs with
  | [] => none
  | c :: rest =>
    if !beginsDirective c then none
    else if (c :: rest).contains '=' then
      let target := (c :: rest).takeWhile (· ≠ '=')
      let level := cs.drop (target.length + 1)
      if target.contains '[' then none
      else if level = [] then some ⟨some (cs.take target.length), .upTo .trace⟩
      else (Threshold.read? level).map fun threshold => ⟨some (cs.take target.length), threshold⟩
    else if (c :: rest).contains '[' then none
    else
      match Threshold.read? cs with
      | some threshold => some ⟨none, threshold⟩
      | none => some ⟨some cs, .upTo .trace⟩

end Directive

/-- Directives; of two that are equally narrow the later one counts. -/
structure Filter where
  directives : List Directive
  deriving DecidableEq, Repr

namespace Filter

/-- The filter that lets all targets pass up to a threshold. -/
def ofThreshold (threshold : Threshold) : Filter :=
  ⟨[⟨none, threshold⟩]⟩

/-- The narrower of a directive found so far and the next one. -/
def narrower (found : Option Directive) (next : Directive) : Option Directive :=
  match found with
  | none => some next
  | some d => if d.narrowness ≤ next.narrowness then some next else some d

/-- The threshold for a target. -/
def thresholdFor (filter : Filter) (target : String) : Threshold :=
  let matching := filter.directives.filter fun d => d.matchesTarget target.toList
  let decisive := matching.foldl narrower none
  match decisive with
  | some d => d.threshold
  | none => .off

/-- An event of this target and severity passes. -/
def passes (filter : Filter) (target : String) (severity : Severity) : Bool :=
  (filter.thresholdFor target).passes severity

/-- Reads the written form of a filter; the empty text is the filter without directives. -/
def read? (s : String) : Option Filter :=
  if s = "" then some ⟨[]⟩
  else ((Text.pieces ',' s.toList).mapM Directive.read?).map Filter.mk

end Filter
end Logging
end ServiceKit
