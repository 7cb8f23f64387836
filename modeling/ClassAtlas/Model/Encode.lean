import ClassAtlas.Model.Basic
import ClassAtlas.Json.Write

/-! The JSON form of a scanned project. -/

namespace ClassAtlas

open Json

def Parameter.toJson (p : Parameter) : Json :=
  object [("type", string p.type), ("name", string p.name)]

def Endpoint.toJson (e : Endpoint) : Json :=
  object [("http_method", string e.verb), ("path", string e.path),
    ("produces", ofOption string e.produces), ("consumes", ofOption string e.consumes),
    ("description", ofOption string e.description)]

def Field.toJson (f : Field) : Json :=
  object [("name", string f.name), ("type", string f.type), ("visibility", string f.visibility),
    ("is_static", bool f.isStatic), ("annotations", strings f.annotations)]

def Method.toJson (m : Method) : Json :=
  object [("name", string m.name), ("return_type", string m.returnType),
    ("parameters", array (m.parameters.map Parameter.toJson)),
    ("annotations", strings m.annotations), ("visibility", string m.visibility),
    ("is_static", bool m.isStatic), ("calls", strings m.calls.toList),
    ("endpoint", ofOption Endpoint.toJson m.endpoint)]

def RolePattern.toJson (p : RolePattern) : Json :=
  object [("type", string p.role), ("annotation", string p.marker),
    ("description", string p.description), ("layer", string p.layer)]

def Injection.toJson (i : Injection) : Json :=
  object [("field_name", string i.fieldName), ("field_type", string i.fieldType),
    ("injection_type", string i.injectionType), ("annotation", string i.marker)]

def JavaClass.members (c : JavaClass) : List (String × Json) :=
  [("name", string c.name), ("file_path", string c.filePath), ("package", string c.package),
    ("imports", strings c.imports), ("annotations", strings c.annotations),
    ("extends", ofOption string c.base), ("implements", strings c.interfaces),
    ("fields", array (c.fields.map Field.toJson)),
    ("methods", array (c.methods.map Method.toJson)),
    ("dependencies", strings c.dependencies.toList), ("is_controller", bool c.isController),
    ("endpoints", array (c.endpoints.map Endpoint.toJson)),
    ("role_patterns", array (c.rolePatterns.map RolePattern.toJson)),
    ("injections", array (c.injections.map Injection.toJson))]

def JavaClass.toJson (c : JavaClass) : Json := object c.members

def Relationship.toJson (r : Relationship) : Json :=
  object [("from", string r.source), ("to", string r.target), ("type", string r.kind.name),
    ("method", ofOption string r.method), ("target_kind", string r.targetKind.name)]

def Atlas.toJson (atlas : Atlas) : Json :=
  object [("classes", array (atlas.classes.map JavaClass.toJson)),
    ("relationships", array (atlas.relationships.map Relationship.toJson))]

/-- The JSON text of an atlas, in ASCII. -/
def Atlas.write (atlas : Atlas) (indent : Option Nat) : String :=
  Json.write ⟨true, indent⟩ atlas.toJson

end ClassAtlas
