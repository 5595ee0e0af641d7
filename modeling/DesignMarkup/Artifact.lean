import DesignMarkup.Host

/-!
Generated artifacts that are stored on an element next to its tag: a syntax tree and the code of a
component.  Data that cannot be read counts as none.
-/

namespace DesignMarkup

/-- The version that is recorded with an artifact. -/
def artifactVersion : String :=
  "1.0"

/-- The element that an artifact was made for, as it was called then. -/
structure ShapeInfo where
  id : ElementId
  name : String
deriving DecidableEq

/-- What a syntax tree was made from. -/
structure AstMetadata where
  shapeInfo : ShapeInfo
  htmlCode : String
  cssCode : String
  metaInfo : String
deriving DecidableEq

/-- A stored syntax tree.  The time is in milliseconds. -/
structure AstArtifact where
  ast : String
  timestamp : Int64
  version : String
  metadata : AstMetadata
deriving DecidableEq

/-- The element of a component, and the syntax tree that it had then. -/
structure ComponentMetadata where
  shapeInfo : ShapeInfo
  astData : Option String
deriving DecidableEq

/-- The stored code of a component.  The time is in milliseconds. -/
structure ComponentArtifact where
  code : String
  timestamp : Int64
  version : String
  metadata : ComponentMetadata
deriving DecidableEq

namespace ShapeInfo

def toJson (s : ShapeInfo) : Json :=
  .object [("id", s.id.toJson), ("name", .string s.name)]

def ofJson? (j : Json) : Option ShapeInfo := do
  let r ← j.record? ["id", "name"]
  return {
    id := ← r.required "id" ElementId.ofJson?
    name := ← r.required "name" Json.text? }

end ShapeInfo

namespace AstMetadata

def toJson (m : AstMetadata) : Json :=
  .object [("shapeInfo", m.shapeInfo.toJson), ("htmlCode", .string m.htmlCode),
    ("cssCode", .string m.cssCode), ("metaInfo", .string m.metaInfo)]

def ofJson? (j : Json) : Option AstMetadata := do
  let r ← j.record? ["shapeInfo", "htmlCode", "cssCode", "metaInfo"]
  return {
    shapeInfo := ← r.required "shapeInfo" ShapeInfo.ofJson?
    htmlCode := ← r.withDefault "htmlCode" "" Json.text?
    cssCode := ← r.withDefault "cssCode" "" Json.text?
    metaInfo := ← r.withDefault "metaInfo" "" Json.text? }

end AstMetadata

namespace AstArtifact

/-- The key under which a syntax tree is stored. -/
def dataKey : String :=
  "component-ast"

def make (ast : String) (timestamp : Int64) (metadata : AstMetadata) : AstArtifact :=
  ⟨ast, timestamp, artifactVersion, metadata⟩

def toJson (a : AstArtifact) : Json :=
  .object [("ast", .string a.ast), ("timestamp", .ofInt64 a.timestamp),
    ("version", .string a.version), ("metadata", a.metadata.toJson)]

def ofJson? (j : Json) : Option AstArtifact := do
  let r ← j.record? ["ast", "timestamp", "version", "metadata"]
  return {
    ast := ← r.required "ast" Json.text?
    timestamp := ← r.required "timestamp" Json.int64?
    version := ← r.required "version" Json.text?
    metadata := ← r.required "metadata" AstMetadata.ofJson? }

def toText (a : AstArtifact) : String :=
  a.toJson.compact

def ofText? (s : String) : Option AstArtifact :=
  (Json.read? s).bind ofJson?

end AstArtifact

namespace ComponentMetadata

def toJson (m : ComponentMetadata) : Json :=
  .ofFields [("shapeInfo", some m.shapeInfo.toJson), ("astData", m.astData.map .string)]

def ofJson? (j : Json) : Option ComponentMetadata := do
  let r ← j.record? ["shapeInfo", "astData"]
  return {
    shapeInfo := ← r.required "shapeInfo" ShapeInfo.ofJson?
    astData := ← r.optional "astData" Json.text? }

end ComponentMetadata

namespace ComponentArtifact

/-- The key under which the code of a component is stored. -/
def dataKey : String :=
  "react-component"

def make (code : String) (timestamp : Int64) (metadata : ComponentMetadata) : ComponentArtifact :=
  ⟨code, timestamp, artifactVersion, metadata⟩

def toJson (a : ComponentArtifact) : Json :=
  .object [("componentCode", .string a.code), ("timestamp", .ofInt64 a.timestamp),
    ("version", .string a.version), ("metadata", a.metadata.toJson)]

def ofJson? (j : Json) : Option ComponentArtifact := do
  let r ← j.record? ["componentCode", "timestamp", "version", "metadata"]
  return {
    code := ← r.required "componentCode" Json.text?
    timestamp := ← r.required "timestamp" Json.int64?
    version := ← r.required "version" Json.text?
    metadata := ← r.required "metadata" ComponentMetadata.ofJson? }

def toText (a : ComponentArtifact) : String :=
  a.toJson.compact

def ofText? (s : String) : Option ComponentArtifact :=
  (Json.read? s).bind ofJson?

end ComponentArtifact

namespace Host

/-- The text stored on an element under a key, if it can be read. -/
def stored? (host : Host) (id : ElementId) (key : String) : Option String :=
  match host.read id key with
  | .ok text => text
  | .error _ => none

/-- The syntax tree stored on an element. -/
def ast? (host : Host) (id : ElementId) : Option AstArtifact :=
  (host.stored? id AstArtifact.dataKey).bind AstArtifact.ofText?

def saveAst (host : Host) (id : ElementId) (a : AstArtifact) : Except HostError Host :=
  host.write id AstArtifact.dataKey a.toText

def clearAst (host : Host) (id : ElementId) : Except HostError Host :=
  host.write id AstArtifact.dataKey ""

/-- The code of a component stored on an element. -/
def component? (host : Host) (id : ElementId) : Option ComponentArtifact :=
  (host.stored? id ComponentArtifact.dataKey).bind ComponentArtifact.ofText?

def saveComponent (host : Host) (id : ElementId) (a : ComponentArtifact) : Except HostError Host :=
  host.write id ComponentArtifact.dataKey a.toText

def clearComponent (host : Host) (id : ElementId) : Except HostError Host :=
  host.write id ComponentArtifact.dataKey ""

end Host
end DesignMarkup
