import ClassAtlas.Role.Mapping

/-! The roles that annotations give to a class and its members. -/

namespace ClassAtlas.Role

open Source

structure RoleEntry where
  marker : String
  role : String
  description : String
  layer : String

def roleTable : List RoleEntry :=
  [⟨"RestController", "REST_CONTROLLER",
      "REST controller exposing HTTP endpoints that return response bodies", "PRESENTATION"⟩,
   ⟨"Controller", "CONTROLLER", "MVC controller handling web requests", "PRESENTATION"⟩,
   ⟨"Service", "SERVICE", "Service component holding business logic", "BUSINESS"⟩,
   ⟨"Repository", "REPOSITORY", "Repository component providing data access", "DATA"⟩,
   ⟨"Entity", "ENTITY", "Persistent entity mapped to a database table", "DATA"⟩,
   ⟨"Configuration", "CONFIGURATION", "Configuration class declaring managed beans",
      "CONFIGURATION"⟩,
   ⟨"Component", "COMPONENT", "Generic managed component", "COMPONENT"⟩]

def controllerMarkers : List String := ["Controller", "RestController"]

def injectionMarkers : List String := ["Autowired", "Inject", "Resource", "Qualifier"]

def isController (annotations : List String) : Bool :=
  annotations.any fun marker => controllerMarkers.contains (annotationName marker)

/-- The roles of the markers whose names have not been seen, in order. -/
def rolePatternsFrom (seen : List String) : List String → List RolePattern
  | [] => []
  | marker :: rest =>
    let name := annotationName marker
    match roleTable.find? (·.marker == name) with
    | some entry =>
      if seen.contains name then rolePatternsFrom seen rest
      else
        ⟨entry.role, marker, entry.description, entry.layer⟩ ::
          rolePatternsFrom (name :: seen) rest
    | none => rolePatternsFrom seen rest

/-- One pattern for each role that the annotations name. -/
def rolePatterns (annotations : List String) : List RolePattern := rolePatternsFrom [] annotations

/-- A field with a marker of injection is filled in by its first one. -/
def injectionOf? (f : Field) : Option Injection :=
  (f.annotations.find? fun marker => injectionMarkers.contains (annotationName marker)).map
    fun marker => ⟨f.name, f.type, "field", marker⟩

structure Classification where
  isController : Bool
  basePath : Option String
  /-- One entry for each method. -/
  methodEndpoints : List (Option Endpoint)
  endpoints : List Endpoint
  rolePatterns : List RolePattern
  injections : List Injection

def classify (annotations : List String) (methods : List Method) (fields : List Field) :
    Classification :=
  let controller := isController annotations
  let base := basePath? annotations
  let served := methods.map (endpoint? · base)
  { isController := controller
    basePath := base
    methodEndpoints := served
    endpoints := if controller then served.filterMap id else []
    rolePatterns := rolePatterns annotations
    injections := fields.filterMap injectionOf? }

end ClassAtlas.Role
