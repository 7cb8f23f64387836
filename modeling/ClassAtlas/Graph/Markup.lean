import ClassAtlas.Graph.Multigraph

/-! The GraphML form of a multigraph. -/

namespace ClassAtlas.Graph

def escapeText (c : Char) : List Char :=
  if c == '&' then "&amp;".toList
  else if c == '<' then "&lt;".toList
  else if c == '>' then "&gt;".toList
  else if 0x80 ≤ c.toNat then "&#".toList ++ (toString c.toNat).toList ++ [';']
  else [c]

def escapeValue (c : Char) : List Char :=
  if c == '"' then "&quot;".toList
  else if c == '\r' then "&#13;".toList
  else if c == '\n' then "&#10;".toList
  else if c == '\t' then "&#09;".toList
  else escapeText c

/-- A quoted attribute value. -/
def quotedValue (s : String) : String :=
  "\"" ++ String.ofList (s.toList.flatMap escapeValue) ++ "\""

/-- Whether an attribute belongs to nodes or to edges. -/
inductive Scope where
  | node
  | edge
deriving DecidableEq

def Scope.name : Scope → String
  | node => "node"
  | edge => "edge"

/-- The declaration of an attribute: its name, its kind and its scope. -/
structure Key where
  name : String
  type : String
  scope : Scope
deriving DecidableEq

def Attribute.typeName : Attribute → String
  | text _ => "string"
  | flag _ => "boolean"

def Attribute.content : Attribute → String
  | text s => s
  | flag true => "True"
  | flag false => "False"

def keyOf (scope : Scope) (entry : String × Attribute) : Key :=
  ⟨entry.1, entry.2.typeName, scope⟩

def addKey (keys : List Key) (key : Key) : List Key :=
  if keys.contains key then keys else keys ++ [key]

/-- The keys in the order of their first use, first on nodes and then on edges. -/
def Multigraph.keys (g : Multigraph) : List Key :=
  (g.nodes.flatMap (fun n => n.attributes.map (keyOf .node)) ++
    g.edges.flatMap (fun e => e.attributes.map (keyOf .edge))).foldl addKey []

def keyId (index : Nat) : String := quotedValue (s!"d{index}")

def keyLine (key : Key) (index : Nat) : String :=
  "  <key id=" ++ keyId index ++ " for=" ++ quotedValue key.scope.name ++
    " attr.name=" ++ quotedValue key.name ++ " attr.type=" ++ quotedValue key.type ++ " />"

def dataLine (keys : List Key) (scope : Scope) (entry : String × Attribute) : String :=
  let opening := "      <data key=" ++ keyId (keys.idxOf (keyOf scope entry))
  let content := entry.2.content
  if content.isEmpty then opening ++ " />"
  else opening ++ ">" ++ String.ofList (content.toList.flatMap escapeText) ++ "</data>"

/-- An element with its data, or an empty element when there is none. -/
def elementLines (tag values : String) (data : List String) : List String :=
  if data.isEmpty then ["    <" ++ tag ++ values ++ " />"]
  else ["    <" ++ tag ++ values ++ ">"] ++ data ++ ["    </" ++ tag ++ ">"]

def nodeLines (keys : List Key) (n : Node) : List String :=
  elementLines "node" (" id=" ++ quotedValue n.name) (n.attributes.map (dataLine keys .node))

def edgeLines (keys : List Key) (e : Edge) : List String :=
  elementLines "edge"
    (" source=" ++ quotedValue e.source ++ " target=" ++ quotedValue e.target ++ " id=" ++
      quotedValue (toString e.key))
    (e.attributes.map (dataLine keys .edge))

def documentOpening : String :=
  "<graphml xmlns=\"http://graphml.graphdrawing.org/xmlns\" " ++
  "xmlns:xsi=\"http://www.w3.org/2001/XMLSchema-instance\" " ++
  "xsi:schemaLocation=\"http://graphml.graphdrawing.org/xmlns " ++
  "http://graphml.graphdrawing.org/xmlns/1.0/graphml.xsd\">"

def graphLines (keys : List Key) (g : Multigraph) : List String :=
  if g.nodes.isEmpty then ["  <graph edgedefault=\"directed\" />"]
  else ["  <graph edgedefault=\"directed\">"] ++ g.nodes.flatMap (nodeLines keys) ++
    g.edges.flatMap (edgeLines keys) ++ ["  </graph>"]

def Multigraph.markupLines (g : Multigraph) : List String :=
  let keys := g.keys
  [documentOpening] ++ (keys.zipIdx.map fun (key, index) => keyLine key index).reverse ++
    graphLines keys g ++ ["</graphml>"]

/-- Control characters that end a line. -/
def isLineBreak (c : Char) : Bool :=
  (0xa ≤ c.toNat && c.toNat ≤ 0xd) || (0x1c ≤ c.toNat && c.toNat ≤ 0x1e)

/-- Every line break as a single newline; a carriage return and a newline are one break. -/
def plainBreaks : List Char → List Char
  | [] => []
  | '\r' :: '\n' :: rest => '\n' :: plainBreaks rest
  | c :: rest => (if isLineBreak c then '\n' else c) :: plainBreaks rest

def Multigraph.markup (g : Multigraph) : String :=
  String.ofList (plainBreaks ("\n".intercalate g.markupLines).toList)

end ClassAtlas.Graph
