import DesignMarkup.Json.Record

/-!
Settings: what an export is signed with and what a run of automatic tagging looks at.
-/

namespace DesignMarkup

/-- The name and version that the heading of a forest shows. -/
structure ExportSettings where
  pluginName : String := "Semantic Tagging"
  version : String := "0.3.0"
deriving DecidableEq, Repr, Inhabited

/-- Whether automatic tagging goes on to the elements below those asked for. -/
structure AutoTagSettings where
  includeDescendants : Bool := false
deriving DecidableEq, Repr, Inhabited

structure Settings where
  exports : ExportSettings := {}
  autoTag : AutoTagSettings := {}
deriving DecidableEq, Repr, Inhabited

namespace ExportSettings

def toJson (s : ExportSettings) : Json :=
  .object [("plugin_name", .string s.pluginName), ("version", .string s.version)]

/-- The settings of a tree, given how a text is read. -/
def ofRecord? (text? : Json → Option String) (r : Json.Record) : Option ExportSettings := do
  let default : ExportSettings := {}
  return {
    pluginName := ← r.withDefault "plugin_name" default.pluginName text?
    version := ← r.withDefault "version" default.version text? }

def fieldNames : List String :=
  ["plugin_name", "version"]

def ofJson? (j : Json) : Option ExportSettings :=
  (j.record? fieldNames).bind (ofRecord? Json.text?)

end ExportSettings

namespace AutoTagSettings

def toJson (s : AutoTagSettings) : Json :=
  .object [("include_descendants", .bool s.includeDescendants)]

/-- The settings of a tree, given how a truth value is read. -/
def ofRecord? (bool? : Json → Option Bool) (r : Json.Record) : Option AutoTagSettings := do
  let default : AutoTagSettings := {}
  return {
    includeDescendants := ← r.withDefault "include_descendants" default.includeDescendants bool? }

def fieldNames : List String :=
  ["include_descendants"]

def ofJson? (j : Json) : Option AutoTagSettings :=
  (j.record? fieldNames).bind (ofRecord? Json.bool?)

end AutoTagSettings

namespace Settings

def toJson (s : Settings) : Json :=
  .object [("export", s.exports.toJson), ("auto_tag", s.autoTag.toJson)]

def fieldNames : List String :=
  ["export", "auto_tag"]

/-- The settings of a tree, given how its two groups are read. -/
def ofRecord? (exports? : Json → Option ExportSettings) (autoTag? : Json → Option AutoTagSettings)
    (r : Json.Record) : Option Settings := do
  return {
    exports := ← r.withDefault "export" {} exports?
    autoTag := ← r.withDefault "auto_tag" {} autoTag? }

def ofJson? (j : Json) : Option Settings :=
  (j.record? fieldNames).bind (ofRecord? ExportSettings.ofJson? AutoTagSettings.ofJson?)

def toText (s : Settings) : String :=
  s.toJson.compact

def ofText? (s : String) : Option Settings :=
  (Json.read? s).bind ofJson?

end Settings
end DesignMarkup
