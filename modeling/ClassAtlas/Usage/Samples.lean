import ClassAtlas.Model.Basic
import ClassAtlas.Text.Pieces
import ClassAtlas.Usage.Basic

/-! Samples: code that shows how a class or a method would be used. -/

namespace ClassAtlas.Usage

/-- The value of the first hint that occurs in a name. -/
def hinted (hints : List (String × String)) (default name : String) : String :=
  match hints.find? fun (hint, _) => Text.occursIn hint (Text.lower name) with
  | some (_, value) => value
  | none => default

def stringValue (parameterName : String) : String :=
  hinted
    [("name", "John Doe"), ("email", "user@example.com"), ("id", "12345"),
     ("url", "https://example.com"), ("path", "/api/users"), ("message", "Hello World")]
    "example" parameterName

def integerValue (parameterName : String) : String :=
  hinted [("id", "1"), ("count", "10"), ("size", "100"), ("page", "0")] "1" parameterName

def resultName (returnType : String) : String :=
  hinted [("list", "items"), ("response", "response"), ("user", "user")] "result" returnType

/-- A plausible value for a parameter. -/
def valueFor (type parameterName : String) : String :=
  let small := Text.lower type
  if small == "string" then "\"" ++ stringValue parameterName ++ "\""
  else if small == "int" || small == "integer" then integerValue parameterName
  else if small == "long" then integerValue parameterName ++ "L"
  else if small == "boolean" then "true"
  else if small == "double" || small == "float" then "0.0"
  else if small == "date" then "new Date()"
  else if small == "list" || small == "arraylist" then "Arrays.asList()"
  else instanceName type

def argumentValues (m : Method) : List String := m.parameters.map fun p => valueFor p.type p.name

def returnsNothing (m : Method) : Bool := m.returnType == "void" || m.returnType.isEmpty

/-- A call of a method on an instance, as a statement. -/
def callStatement (c : JavaClass) (m : Method) : String :=
  instanceName c.name ++ "." ++ m.name ++ "(" ++ ", ".intercalate (argumentValues m) ++ ");"

def basicSample (c : JavaClass) (m : Method) : Sample where
  methodName := m.name
  snippet :=
    if returnsNothing m then callStatement c m
    else m.returnType ++ " " ++ resultName m.returnType ++ " = " ++ callStatement c m
  description := "Basic usage of " ++ m.name ++ " method"
  context :=
    if returnsNothing m then "// Call " ++ m.name ++ " to perform the operation"
    else "// Get " ++ m.returnType ++ " result from " ++ m.name
  parameters := argumentValues m

/-- A sample under a comment, with the result kept in a variable. -/
def roleSampleWith (c : JavaClass) (m : Method) (role comment variableName context : String) :
    Sample where
  methodName := m.name
  snippet :=
    "// " ++ comment ++ "\n" ++ m.returnType ++ " " ++ variableName ++ " = " ++ callStatement c m
  description := role ++ " usage of " ++ m.name
  context := context
  parameters := argumentValues m

/-- A sample for a method of a controller, a service or a repository. -/
def roleSample? (c : JavaClass) (m : Method) (role : String) : Option Sample :=
  if role == "CONTROLLER" || role == "REST_CONTROLLER" then
    m.endpoint.map fun e =>
      roleSampleWith c m role ("HTTP " ++ e.verb ++ " request handler") "response"
        ("// This method handles HTTP requests and returns " ++ m.returnType)
  else if role == "SERVICE" then
    some (roleSampleWith c m role "Business logic execution" "result"
      "// Service layer method for business operations")
  else if role == "REPOSITORY" then
    some (roleSampleWith c m role "Data access operation" "data"
      "// Repository method for database operations")
  else none

def errorHandlingSample (c : JavaClass) (m : Method) : Sample where
  methodName := m.name
  snippet := "\n".intercalate
    ["try \x7b",
     "    " ++ (if returnsNothing m then "" else m.returnType ++ " result = ") ++
       callStatement c m,
     "    // Handle success case",
     "\x7d catch (Exception e) \x7b",
     "    logger.error(\"Error calling " ++ m.name ++ ": \" + e.getMessage());",
     "\x7d"]
  description := "Error handling example for " ++ m.name
  context := "// Proper error handling when calling " ++ m.name
  parameters := argumentValues m

/-- The samples of a method: a basic one, one for the class's first role, and one with error
handling when it takes more than two parameters. -/
def methodSamples (c : JavaClass) (m : Method) : List Sample :=
  [basicSample c m] ++
    (c.rolePatterns.head?.bind fun p => roleSample? c m p.role).toList ++
    (if 2 < m.parameters.length then [errorHandlingSample c m] else [])

def injectionSample (c : JavaClass) (p : RolePattern) : Sample where
  methodName := "class_injection"
  snippet := "@Autowired\nprivate " ++ c.name ++ " " ++ instanceName c.name ++ ";"
  description := "Dependency injection of " ++ c.name
  context := "// " ++ p.description
  parameters := []

def constructorSample (c : JavaClass) : Sample where
  methodName := "constructor"
  snippet := c.name ++ " " ++ instanceName c.name ++ " = new " ++ c.name ++ "();"
  description := "Creating instance of " ++ c.name
  context := "// Standard object instantiation"
  parameters := []

/-- A class with a role is injected, and any other is created. -/
def classSamples (c : JavaClass) : List Sample :=
  match c.rolePatterns with
  | p :: _ => [injectionSample c p]
  | [] => [constructorSample c]

end ClassAtlas.Usage
