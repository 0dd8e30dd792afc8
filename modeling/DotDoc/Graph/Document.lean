import DotDoc.Attribute.Written
import DotDoc.Graph.Basic
import DotDoc.Graph.Order

/-!
# The document of a graph

A document is a sequence of sections with a blank line between neighbours: the opening line, the
attributes of the graph, the defaults, one block per subgraph, the vertices and the edges that no
block contains, and the closing brace.  A section without lines is left out.  A block has the same
sections inside, one level deeper, and a cluster its styling besides.

An edge is contained in a block when both of its ends are members.  Vertices and edges are written
in ascending order of their numbers.

A value that cannot be a member of a set cannot be compared with vertices, so a subgraph with such
a member has no block, and its graph no document.
-/

set_option autoImplicit false

namespace DotDoc

/-- Lines as one section; no section when there are none. -/
def sectionOf (lines : List Text) : List Text :=
  if lines.isEmpty then [] else [Text.joinLines lines]

def joinSections (sections : List Text) : Text :=
  Text.joinWith ['\n', '\n'] sections

/-- A vertex in an edge statement, with the port after a colon. -/
def endpointText (vertex : Text) (port : Option Text) : Text :=
  match port with
  | some port => 'v' :: vertex ++ ':' :: port
  | none => 'v' :: vertex

def Endpoint.written (e : Endpoint) : Text :=
  endpointText e.id.display (e.port.map Value.display)

def Vertex.written (v : Vertex) : Text :=
  Text.indent (withList ('v' :: Text.ofNat v.id) v.attrs.texts)

def Edge.written (e : Edge) : Text :=
  Text.indent (withList (e.tail.written ++ " -> ".toList ++ e.head.written) e.attrs.texts)

def writtenVertices (vertices : List Vertex) : List Text :=
  (sortByNumber Vertex.id vertices).map Vertex.written

def writtenEdges (edges : List Edge) : List Text :=
  (sortByNumber Edge.id edges).map Edge.written

namespace Subgraph

def holdsVertex (s : Subgraph) (v : Vertex) : Bool :=
  s.contains (.int v.id)

def holdsEdge (s : Subgraph) (e : Edge) : Bool :=
  s.contains (.int e.tail.vertex) && s.contains (.int e.head.vertex)

/-- Whether all members can be compared with vertices. -/
def isWritable (s : Subgraph) : Bool :=
  Value.allHashable s.members

def stylingLines (s : Subgraph) : List Text :=
  if s.isCluster then s.styling.lines else []

end Subgraph

namespace Graph

def verticesIn (s : Subgraph) (g : Graph) : List Vertex :=
  g.vertices.filter s.holdsVertex

def edgesIn (s : Subgraph) (g : Graph) : List Edge :=
  g.edges.filter s.holdsEdge

def grouped (g : Graph) : List Value :=
  g.subgraphs.flatMap Subgraph.members

/-- The vertices that no block contains. -/
def looseVertices (g : Graph) : List Vertex :=
  g.vertices.filter fun v => !(Value.int v.id).occursIn g.grouped

def looseEdges (g : Graph) : List Edge :=
  g.edges.filter fun e => !g.subgraphs.any fun s => s.holdsEdge e

def blockSections (s : Subgraph) (g : Graph) : List Text :=
  ["subgraph ".toList ++ s.name ++ [' ', '\x7b']]
    ++ sectionOf (writtenDefaults s.vertexDefaults.texts s.edgeDefaults.texts)
    ++ sectionOf s.stylingLines
    ++ sectionOf (writtenVertices (g.verticesIn s))
    ++ sectionOf (writtenEdges (g.edgesIn s))
    ++ [['\x7d']]

def block (s : Subgraph) (g : Graph) : Text :=
  joinSections ((g.blockSections s).map Text.indent)

def documentSections (g : Graph) : List Text :=
  ["digraph G \x7b".toList]
    ++ sectionOf g.attrs.lines
    ++ sectionOf (writtenDefaults g.vertexDefaults.texts g.edgeDefaults.texts)
    ++ g.subgraphs.map (fun s => g.block s)
    ++ sectionOf (writtenVertices g.looseVertices)
    ++ sectionOf (writtenEdges g.looseEdges)
    ++ [['\x7d']]

def document (g : Graph) : Text :=
  joinSections g.documentSections

/-- Whether the members of all subgraphs can be compared with vertices.  Grouping vertices adds
only such members; others get in where members are added unchecked. -/
def isWritable (g : Graph) : Bool :=
  g.subgraphs.all Subgraph.isWritable

def document? (g : Graph) : Except Error Text :=
  if g.isWritable then .ok g.document else .error .wrongType

/-- The block of a subgraph that can be written, whether or not the others can. -/
def block? (s : Subgraph) (g : Graph) : Except Error Text :=
  if s.isWritable then .ok (g.block s) else .error .wrongType

def loose? (g : Graph) : Except Error (List Vertex × List Edge) :=
  if g.isWritable then .ok (g.looseVertices, g.looseEdges) else .error .wrongType

def verticesOf (ids : Value) (g : Graph) : Except Error (List Vertex) := do
  (← ids.elements).mapM fun id => g.vertex id

def edgesOf (ids : Value) (g : Graph) : Except Error (List Edge) := do
  (← ids.elements).mapM fun id => g.edge id

def summary (g : Graph) : Text :=
  "<Graph vertices=".toList ++ Text.ofNat g.vertices.length
    ++ " edges=".toList ++ Text.ofNat g.edges.length
    ++ " subgraphs=".toList ++ Text.ofNat g.subgraphs.length ++ ['>']

end Graph
end DotDoc
