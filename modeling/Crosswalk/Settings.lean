import Crosswalk.Text.Blank
import Crosswalk.Tier
import Crosswalk.Toml.Document

/-!
# Settings

What a converter can be told: how much work on plans it keeps, whether it redacts, and in which
directions it checks the rules. Settings are stored as a TOML document. In a document, words are
spelled exactly; a level that a person names is taken more freely. Keys that are missing have their
defaults, and other keys are of no concern.
-/

namespace Crosswalk

/-- How much speed is bought with memory. -/
inductive Level
  | basic | optimized | ultraFast
deriving DecidableEq

namespace Level

def all : List Level := [basic, optimized, ultraFast]

/-- The spelling in messages and in stored documents. -/
def name : Level → String
  | basic => "basic"
  | optimized => "optimized"
  | ultraFast => "ultra_fast"

/-- The name in diagnostics. -/
def debugName : Level → String
  | basic => "Basic"
  | optimized => "Optimized"
  | ultraFast => "UltraFast"

/-- The level that a stored document spells so. -/
def ofTag? (text : String) : Option Level :=
  all.find? (·.name = text)

/-- The tier that a level stands for. -/
def tier : Level → Tier
  | basic => .naive
  | optimized => .cached
  | ultraFast => .compiled

/-- The level that a person names. Blanks around the name, the case of ASCII letters and the choice
between dash and underscore make no difference, and the last level needs neither. -/
def ofText (text : String) : Except ConvertError Level :=
  let normal := (Text.trim text).map fun c => if c = '-' then '_' else c.toLower
  if normal = "ultrafast" then .ok ultraFast
  else
    match ofTag? normal with
    | some level => .ok level
    | none => .error (.config ("unknown performance level '" ++ normal ++ "'"))

end Level

/-- The directions in which rules are checked. -/
inductive Scope
  | none | toModel | toWire | both
deriving DecidableEq

namespace Scope

def all : List Scope := [none, toModel, toWire, both]

/-- The spelling in stored documents. -/
def tag : Scope → String
  | none => "none"
  | toModel => "to_model"
  | toWire => "to_wire"
  | both => "both"

/-- The name in diagnostics. -/
def debugName : Scope → String
  | none => "None"
  | toModel => "ToModel"
  | toWire => "ToWire"
  | both => "Both"

def ofTag? (text : String) : Option Scope :=
  all.find? (·.tag = text)

/-- Whether rules are checked in a direction. -/
def covers : Scope → Direction → Bool
  | both, _ | toModel, .toModel | toWire, .toWire => true
  | _, _ => false

end Scope

/-- What a converter is told once and for all. -/
structure Settings where
  level : Level
  redacts : Bool
  scope : Scope
deriving DecidableEq

/-- What is told differently for a single call. -/
structure CallOptions where
  checks : Option Bool
  redacts : Option Bool

namespace CallOptions

/-- Everything as in the settings. -/
def none : CallOptions := ⟨.none, .none⟩

end CallOptions

namespace Settings

def default : Settings := ⟨.basic, false, .both⟩

/-- Whether a call redacts. -/
def redactsUnder (s : Settings) (options : CallOptions) : Bool :=
  options.redacts.getD s.redacts

/-- Whether a call checks the rules. -/
def checksUnder (s : Settings) (options : CallOptions) (direction : Direction) : Bool :=
  options.checks.getD (s.scope.covers direction)

/-- The settings as a stored document. -/
def toToml (s : Settings) : String :=
  "performance_level = \"" ++ s.level.name ++ "\"\nmask_sensitive_fields = " ++
    (if s.redacts then "true" else "false") ++ "\nvalidate = \"" ++ s.scope.tag ++ "\"\n"

/-- One of several words. A table with the word as its only key and nothing under it is the same. -/
def word? {α : Type} (ofTag? : String → Option α) : Toml.Node → Option α
  | .text s => ofTag? s
  | .table _ [(key, .table _ [])] | .table _ [(key, .array [])] => ofTag? key
  | _ => none

/-- Whether something is so. -/
def truth? : Toml.Node → Option Bool
  | .boolean b => some b
  | _ => none

/-- What is stored under a key, or the default. -/
def entry {α : Type} (table : Toml.Entries) (key : String) (read? : Toml.Node → Option α)
    (otherwise : α) : Option α :=
  match table.lookup key with
  | none => some otherwise
  | some node => read? node

/-- The settings of a stored document, if it is one. -/
def ofToml? (text : String) : Option Settings := do
  let table ← Toml.document? text
  return {
    level := ← entry table "performance_level" (word? Level.ofTag?) default.level
    redacts := ← entry table "mask_sensitive_fields" truth? default.redacts
    scope := ← entry table "validate" (word? Scope.ofTag?) default.scope }

/-- The settings in diagnostics. -/
def debugText (s : Settings) : String :=
  "ConverterConfig \x7b performance_level: " ++ s.level.debugName ++ ", mask_sensitive_fields: " ++
    (if s.redacts then "true" else "false") ++ ", validate: " ++ s.scope.debugName ++ " \x7d"

end Settings

end Crosswalk
