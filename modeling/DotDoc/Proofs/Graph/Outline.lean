import DotDoc.Proofs.Graph.Statement

/-!
# The outline of a document

An outline is what a document says: the settings, defaults, vertices and edges of its top level,
and the blocks with a name and a level of their own.  The lines of an outline are read back by
sorting the statements of each level, whatever their order, and by cutting out behind every opening
line the deeper lines that follow it.  So the lines determine the outline.  The lines of a plain
graph's document that are not blank are the texts of the lines of its outline.
-/

set_option autoImplicit false

namespace DotDoc

structure WrittenEdge where
  tail : WrittenEnd
  head : WrittenEnd
  attrs : Listing

structure Level where
  settings : Listing
  vertexDefaults : Listing
  edgeDefaults : Listing
  vertices : List (Nat × Listing)
  edges : List WrittenEdge

namespace Level

def listed (subject : Subject) (attrs : Listing) : List Statement :=
  if attrs = [] then [] else [.element subject attrs]

def settingStatements (l : Level) : List Statement :=
  l.settings.map .setting

def defaultStatements (l : Level) : List Statement :=
  listed .vertexDefaults l.vertexDefaults ++ listed .edgeDefaults l.edgeDefaults

def vertexStatements (l : Level) : List Statement :=
  l.vertices.map fun v => .element (.vertex v.1) v.2

def edgeStatements (l : Level) : List Statement :=
  l.edges.map fun e => .element (.edge e.tail e.head) e.attrs

def setting? : Statement → Option (Text × Text)
  | .setting entry => some entry
  | _ => none

def vertexDefaults? : Statement → Option Listing
  | .element .vertexDefaults attrs => some attrs
  | _ => none

def edgeDefaults? : Statement → Option Listing
  | .element .edgeDefaults attrs => some attrs
  | _ => none

def vertex? : Statement → Option (Nat × Listing)
  | .element (.vertex id) attrs => some (id, attrs)
  | _ => none

def edge? : Statement → Option WrittenEdge
  | .element (.edge tail head) attrs => some ⟨tail, head, attrs⟩
  | _ => none

/-- The statements sorted by what they are about. -/
def read (statements : List Statement) : Level where
  settings := statements.filterMap setting?
  vertexDefaults := (statements.filterMap vertexDefaults?).flatten
  edgeDefaults := (statements.filterMap edgeDefaults?).flatten
  vertices := statements.filterMap vertex?
  edges := statements.filterMap edge?

def beside (l m : Level) : Level where
  settings := l.settings ++ m.settings
  vertexDefaults := l.vertexDefaults ++ m.vertexDefaults
  edgeDefaults := l.edgeDefaults ++ m.edgeDefaults
  vertices := l.vertices ++ m.vertices
  edges := l.edges ++ m.edges

def empty : Level := ⟨[], [], [], [], []⟩

theorem read_append (first second : List Statement) :
    read (first ++ second) = (read first).beside (read second) := by
  simp [read, beside]

variable {l : Level}

theorem read_settingStatements : read l.settingStatements = { empty with settings := l.settings } := by
  simp [read, settingStatements, List.filterMap_map, Function.comp_def, setting?, vertexDefaults?,
    edgeDefaults?, vertex?, edge?, empty]

theorem read_defaultStatements :
    read l.defaultStatements
      = { empty with vertexDefaults := l.vertexDefaults, edgeDefaults := l.edgeDefaults } := by
  rw [defaultStatements, read_append]
  have nodes : read (listed .vertexDefaults l.vertexDefaults)
      = { empty with vertexDefaults := l.vertexDefaults } := by
    by_cases none : l.vertexDefaults = [] <;>
      simp [listed, none, read, setting?, vertexDefaults?, edgeDefaults?, vertex?, edge?, empty]
  have edges : read (listed .edgeDefaults l.edgeDefaults)
      = { empty with edgeDefaults := l.edgeDefaults } := by
    by_cases none : l.edgeDefaults = [] <;>
      simp [listed, none, read, setting?, vertexDefaults?, edgeDefaults?, vertex?, edge?, empty]
  rw [nodes, edges]
  simp [beside, empty]

theorem read_vertexStatements : read l.vertexStatements = { empty with vertices := l.vertices } := by
  simp [read, vertexStatements, List.filterMap_map, Function.comp_def, setting?, vertexDefaults?,
    edgeDefaults?, vertex?, edge?, empty]

theorem read_edgeStatements : read l.edgeStatements = { empty with edges := l.edges } := by
  simp [read, edgeStatements, List.filterMap_map, Function.comp_def, setting?, vertexDefaults?,
    edgeDefaults?, vertex?, edge?, empty]

def heading (l : Level) : List Statement :=
  l.settingStatements ++ l.defaultStatements

def body (l : Level) : List Statement :=
  l.vertexStatements ++ l.edgeStatements

/-- The statements inside a block, where the defaults come first. -/
def statements (l : Level) : List Statement :=
  l.defaultStatements ++ l.settingStatements ++ l.body

theorem read_heading : read l.heading = { l with vertices := [], edges := [] } := by
  rw [heading, read_append, read_settingStatements, read_defaultStatements]
  simp [beside, empty]

theorem read_body : read l.body = { empty with vertices := l.vertices, edges := l.edges } := by
  rw [body, read_append, read_vertexStatements, read_edgeStatements]
  simp [beside, empty]

theorem read_statements (l : Level) : read l.statements = l := by
  rw [statements, read_append, read_append, read_settingStatements, read_defaultStatements,
    read_body]
  simp [beside, empty]

theorem settingStatements_subset (l : Level) : l.settingStatements ⊆ l.statements :=
  fun _ member => List.mem_append_left _ (List.mem_append_right _ member)

theorem defaultStatements_subset (l : Level) : l.defaultStatements ⊆ l.statements :=
  fun _ member => List.mem_append_left _ (List.mem_append_left _ member)

theorem vertexStatements_subset (l : Level) : l.vertexStatements ⊆ l.statements :=
  fun _ member => List.mem_append_right _ (List.mem_append_left _ member)

theorem edgeStatements_subset (l : Level) : l.edgeStatements ⊆ l.statements :=
  fun _ member => List.mem_append_right _ (List.mem_append_right _ member)

theorem mem_statements_of_heading {s : Statement} (member : s ∈ l.heading) :
    s ∈ l.statements := by
  simp only [heading, statements, List.mem_append] at member ⊢
  exact .inl member.symm

theorem mem_statements_of_body {s : Statement} (member : s ∈ l.body) : s ∈ l.statements :=
  List.mem_append_right _ member

theorem mem_statements {s : Statement} (member : s ∈ l.statements) :
    (∃ entry ∈ l.settings, s = .setting entry) ∨
    s = .element .vertexDefaults l.vertexDefaults ∨ s = .element .edgeDefaults l.edgeDefaults ∨
    (∃ v ∈ l.vertices, s = .element (.vertex v.1) v.2) ∨
    ∃ e ∈ l.edges, s = .element (.edge e.tail e.head) e.attrs := by
  have of_listed {subject : Subject} {attrs : Listing} (inside : s ∈ listed subject attrs) :
      s = .element subject attrs := by
    unfold listed at inside
    split at inside
    · cases inside
    · exact List.mem_singleton.1 inside
  simp only [statements, body, defaultStatements, List.mem_append] at member
  rcases member with ((nodes | edges) | setting) | vertex | edge
  · exact .inr (.inl (of_listed nodes))
  · exact .inr (.inr (.inl (of_listed edges)))
  · obtain ⟨entry, stored, same⟩ := List.mem_map.1 setting
    exact .inl ⟨entry, stored, same.symm⟩
  · obtain ⟨v, stored, same⟩ := List.mem_map.1 vertex
    exact .inr (.inr (.inr (.inl ⟨v, stored, same.symm⟩)))
  · obtain ⟨e, stored, same⟩ := List.mem_map.1 edge
    exact .inr (.inr (.inr (.inr ⟨e, stored, same.symm⟩)))

structure Plain (l : Level) : Prop where
  settings : l.settings.Plain
  vertexDefaults : l.vertexDefaults.Plain
  edgeDefaults : l.edgeDefaults.Plain
  vertices : ∀ v ∈ l.vertices, v.2.Plain
  edges : ∀ e ∈ l.edges, (Subject.edge e.tail e.head).Plain ∧ e.attrs.Plain

theorem Plain.statement (plain : l.Plain) : ∀ s ∈ l.statements, s.Plain := by
  intro s member
  rcases mem_statements member with ⟨entry, stored, rfl⟩ | rfl | rfl | ⟨v, stored, rfl⟩ |
    ⟨e, stored, rfl⟩
  · exact plain.settings entry stored
  · exact ⟨trivial, plain.vertexDefaults⟩
  · exact ⟨trivial, plain.edgeDefaults⟩
  · exact ⟨trivial, plain.vertices v stored⟩
  · exact plain.edges e stored

end Level

structure Block where
  name : Text
  level : Level

/-- The top level of a document and its blocks in order. -/
structure Outline where
  top : Level
  blocks : List Block

namespace Block

def lines (b : Block) : List Line :=
  ⟨1, .opening b.name⟩ :: b.level.statements.map (Line.mk 2) ++ [⟨1, .closing⟩]

/-- The name of the block that a statement opens. -/
def opened? : Statement → Option Text
  | .opening name => some name
  | _ => none

/-- The blocks among lines.  The level of a block is in the deeper lines behind its opening. -/
def read : List Line → List Block
  | [] => []
  | line :: rest =>
      match opened? line.statement with
      | some name =>
          ⟨name, Level.read ((rest.takeWhile fun l => l.depth = 2).map Line.statement)⟩
            :: read rest
      | none => read rest

theorem opened?_of_mem_statements {l : Level} : ∀ s ∈ l.statements, opened? s = none := by
  intro s member
  rcases Level.mem_statements member with ⟨_, _, rfl⟩ | rfl | rfl | ⟨_, _, rfl⟩ | ⟨_, _, rfl⟩ <;>
    rfl

theorem read_append_of_none (depth : Nat) {statements : List Statement}
    (none_opened : ∀ s ∈ statements, opened? s = none) (rest : List Line) :
    read (statements.map (Line.mk depth) ++ rest) = read rest := by
  induction statements with
  | nil => rfl
  | cons s later ih =>
      have here : opened? s = none := none_opened s (List.mem_cons_self ..)
      have skipped := ih fun t member => none_opened t (List.mem_cons_of_mem _ member)
      rw [List.map_cons, List.cons_append, read]
      simp only [here]
      exact skipped

theorem read_lines_append (b : Block) (rest : List Line) :
    read (b.lines ++ rest) = b :: read rest := by
  -- the closing line is the first behind the opening that is not deeper
  have deeper : ((b.level.statements.map (Line.mk 2) ++ ⟨1, .closing⟩ :: rest).takeWhile
      fun l => l.depth = 2).map Line.statement = b.level.statements := by
    rw [List.takeWhile_append_of_pos (by simp)]
    simp [List.takeWhile, Function.comp_def]
  have behind : read (b.level.statements.map (Line.mk 2) ++ ⟨1, .closing⟩ :: rest) = read rest := by
    rw [read_append_of_none 2 opened?_of_mem_statements]
    rfl
  rw [lines, List.append_assoc, List.cons_append, List.singleton_append, read]
  simp only [opened?, deeper, behind, Level.read_statements]

end Block

namespace Outline

def lines (o : Outline) : List Line :=
  o.top.heading.map (Line.mk 1) ++ o.blocks.flatMap Block.lines ++ o.top.body.map (Line.mk 1)

def atDepth (depth : Nat) (lines : List Line) : List Statement :=
  (lines.filter fun l => l.depth = depth).map Line.statement

theorem atDepth_append (depth : Nat) (first second : List Line) :
    atDepth depth (first ++ second) = atDepth depth first ++ atDepth depth second := by
  simp [atDepth]

theorem atDepth_map (depth : Nat) (statements : List Statement) :
    atDepth depth (statements.map (Line.mk depth)) = statements := by
  simp [atDepth, List.filter_map, Function.comp_def]

theorem read_blocks (blocks : List Block) :
    Level.read (atDepth 1 (blocks.flatMap Block.lines)) = .empty := by
  induction blocks with
  | nil => rfl
  | cons b rest ih =>
      have own : atDepth 1 b.lines = [.opening b.name, .closing] := by
        simp [atDepth, Block.lines, List.filter_map, Function.comp_def]
      rw [List.flatMap_cons, atDepth_append, Level.read_append, ih, own]
      rfl

theorem read_top (o : Outline) : Level.read (atDepth 1 o.lines) = o.top := by
  rw [lines, atDepth_append, atDepth_append, atDepth_map, atDepth_map, Level.read_append,
    Level.read_append, Level.read_heading, read_blocks, Level.read_body]
  simp [Level.beside, Level.empty]

theorem read_block_lines (blocks : List Block) (rest : List Line) :
    Block.read (blocks.flatMap Block.lines ++ rest) = blocks ++ Block.read rest := by
  induction blocks with
  | nil => rfl
  | cons b later ih =>
      rw [List.flatMap_cons, List.append_assoc, Block.read_lines_append, ih, List.cons_append]

theorem read_lines (o : Outline) : Block.read o.lines = o.blocks := by
  have heading : ∀ s ∈ o.top.heading, Block.opened? s = none := fun s member =>
    Block.opened?_of_mem_statements s (Level.mem_statements_of_heading member)
  have body : ∀ s ∈ o.top.body, Block.opened? s = none := fun s member =>
    Block.opened?_of_mem_statements s (Level.mem_statements_of_body member)
  have last : Block.read (o.top.body.map (Line.mk 1)) = [] := by
    have behind := Block.read_append_of_none 1 body []
    rwa [List.append_nil] at behind
  rw [lines, List.append_assoc, Block.read_append_of_none 1 heading, read_block_lines, last,
    List.append_nil]

theorem lines_injective : Function.Injective lines := by
  intro o p same
  have tops : o.top = p.top := by rw [← read_top o, same, read_top]
  have blocks : o.blocks = p.blocks := by rw [← read_lines o, same, read_lines]
  cases o
  cases p
  rw [Outline.mk.injEq]
  exact ⟨tops, blocks⟩

structure Plain (o : Outline) : Prop where
  top : o.top.Plain
  blocks : ∀ b ∈ o.blocks, (∀ c ∈ b.name, Subject.isChar c = true) ∧ b.level.Plain

theorem Plain.line {o : Outline} (plain : o.Plain) : ∀ l ∈ o.lines, l.statement.Plain := by
  intro l member
  simp only [lines, List.mem_append, List.mem_map, List.mem_flatMap] at member
  rcases member with (⟨s, inside, rfl⟩ | ⟨b, stored, inside⟩) | ⟨s, inside, rfl⟩
  · exact plain.top.statement s (Level.mem_statements_of_heading inside)
  · obtain ⟨name, level⟩ := plain.blocks b stored
    simp only [Block.lines, List.cons_append, List.mem_cons, List.mem_append, List.mem_map,
      List.not_mem_nil, or_false] at inside
    rcases inside with rfl | ⟨s, deeper, rfl⟩ | rfl
    · exact name
    · exact level.statement s deeper
    · exact trivial
  · exact plain.top.statement s (Level.mem_statements_of_body inside)

theorem texts_inj {o p : Outline} (o_plain : o.Plain) (p_plain : p.Plain)
    (same : o.lines.map Line.text = p.lines.map Line.text) : o = p :=
  lines_injective (Line.texts_inj o_plain.line p_plain.line same)

end Outline
end DotDoc
