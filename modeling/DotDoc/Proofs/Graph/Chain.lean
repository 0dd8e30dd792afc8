import DotDoc.Proofs.Graph.Ports

/-!
# Chains

A chain adds an edge from each of its ends to the next one, so it takes as many numbers as it has
ends, less one.  It stops at the first item that names no end and keeps the edges in front of it:
what it leaves is what the chain along the items in front of that one leaves.

A chain looks at pairs.  An item that is refused is the head of an edge when it is looked at, and
only the first item is looked at as a tail first; a chain of a single item looks at nothing.
-/

set_option autoImplicit false

namespace DotDoc

namespace Graph

variable {g : Graph}

/-- A value names an end of an edge: it is equal to the number of a stored vertex, or it is a pair
of such a value and a port. -/
inductive NamesEnd (g : Graph) : Value → Endpoint → Prop
  | vertex {id : Value} {n : Nat} (stored : g.HasVertex n)
      (named : id.integer? = some (n : Int)) : NamesEnd g id ⟨id, n, none⟩
  | withPort {id : Value} {n : Nat} (port : Value) (stored : g.HasVertex n)
      (named : id.integer? = some (n : Int)) :
      NamesEnd g (.tuple [id, port]) ⟨id, n, port.given?⟩

theorem twoParts_eq_ok {items : List Value} {parts : Value × Value}
    (named : Value.twoParts items = .ok parts) : items = [parts.1, parts.2] := by
  match items, named with
  | [first, second], named =>
      cases named
      rfl

theorem Consistent.endpoint_eq_ok_iff (c : g.Consistent) {v : Value} {e : Endpoint} :
    g.endpoint v = .ok e ↔ g.NamesEnd v e := by
  constructor
  · intro found
    obtain ⟨⟨id, port⟩, named, rest⟩ := bind_eq_ok_iff.1 found
    obtain ⟨u, looked_up, answer⟩ := bind_eq_ok_iff.1 rest
    obtain ⟨stored, number⟩ := vertex_eq_ok looked_up
    have held : g.HasVertex u.id := ⟨u, stored, rfl⟩
    dsimp only at number
    cases answer
    cases v with
    | tuple items =>
        have parts : items = [id, port] := twoParts_eq_ok named
        rw [parts]
        exact .withPort port held number
    | _ =>
        cases named
        exact .vertex held number
  · intro names
    cases names with
    | vertex stored named =>
        obtain ⟨u, member, rfl⟩ := stored
        exact endpoint_of_named c member named
    | withPort port stored named =>
        obtain ⟨u, member, rfl⟩ := stored
        simp only [endpoint, Value.idAndPort, Value.twoParts, bind, Except.bind,
          c.vertex_of_named member named]
        rfl

def IsEnd (g : Graph) (v : Value) : Prop :=
  ∃ e, g.NamesEnd v e

theorem ends_cases (g : Graph) (items : List Value) :
    (∃ ends, g.endpoints items = .ok ends) ∨
    ∃ before item later ends e, items = before ++ item :: later ∧
      g.endpoints before = .ok ends ∧ g.endpoint item = .error e := by
  induction items with
  | nil => exact .inl ⟨[], rfl⟩
  | cons first rest ih =>
      cases found : g.endpoint first with
      | error e => exact .inr ⟨[], first, rest, [], e, rfl, rfl, found⟩
      | ok first_end =>
          have extend {more : List Value} {ends : List Endpoint}
              (later_found : g.endpoints more = .ok ends) :
              g.endpoints (first :: more) = .ok (first_end :: ends) := by
            rw [endpoints, found, later_found]
            rfl
          rcases ih with ⟨ends, all_found⟩ | ⟨before, item, later, ends, e, rfl, before_found,
            refused⟩
          · exact .inl ⟨first_end :: ends, extend all_found⟩
          · exact .inr ⟨first :: before, item, later, first_end :: ends, e, rfl,
              extend before_found, refused⟩

theorem length_endpoints {items : List Value} {ends : List Endpoint}
    (found : g.endpoints items = .ok ends) : ends.length = items.length := by
  induction items generalizing ends with
  | nil =>
      cases found
      rfl
  | cons first rest ih =>
      obtain ⟨first_end, _, found⟩ := bind_eq_ok_iff.1 found
      obtain ⟨others, rest_found, answer⟩ := bind_eq_ok_iff.1 found
      cases answer
      rw [List.length_cons, List.length_cons, ih rest_found]

theorem getElem?_endpoints {items : List Value} {ends : List Endpoint} {i : Nat} {v : Value}
    (found : g.endpoints items = .ok ends) (item_at : items[i]? = some v) :
    ∃ e, ends[i]? = some e ∧ g.endpoint v = .ok e := by
  induction items generalizing ends i with
  | nil => cases item_at
  | cons first rest ih =>
      obtain ⟨first_end, first_found, found⟩ := bind_eq_ok_iff.1 found
      obtain ⟨others, rest_found, answer⟩ := bind_eq_ok_iff.1 found
      cases answer
      cases i with
      | zero =>
          cases item_at
          exact ⟨first_end, rfl, first_found⟩
      | succ i =>
          obtain ⟨e, e_at, named⟩ := ih rest_found item_at
          exact ⟨e, e_at, named⟩

theorem endpoint_of_endpoints {items : List Value} {ends : List Endpoint} {v : Value}
    (found : g.endpoints items = .ok ends) (member : v ∈ items) :
    ∃ e, g.endpoint v = .ok e := by
  obtain ⟨i, item_at⟩ := List.mem_iff_getElem?.1 member
  obtain ⟨e, _, named⟩ := getElem?_endpoints found item_at
  exact ⟨e, named⟩

theorem Consistent.isEnd_of_endpoints (c : g.Consistent) {items : List Value}
    {ends : List Endpoint} (found : g.endpoints items = .ok ends) :
    ∀ v ∈ items, g.IsEnd v := by
  intro v member
  obtain ⟨e, named⟩ := endpoint_of_endpoints found member
  exact ⟨e, c.endpoint_eq_ok_iff.1 named⟩

theorem Consistent.not_isEnd (c : g.Consistent) {v : Value} {e : Error}
    (refused : g.endpoint v = .error e) : ¬g.IsEnd v := by
  rintro ⟨named, names⟩
  rw [c.endpoint_eq_ok_iff.2 names] at refused
  cases refused

/-! ## Chains -/

/-- The edge of a number between two ends, which have the ports among the attributes unless they
name their own. -/
def edgeBetween (attrs : Keywords) (number : Nat) (tail head : Endpoint) : Edge where
  id := number
  tail := tail.withDefaultPort ((attrs.find? "outport").bind Value.given?)
  head := head.withDefaultPort ((attrs.find? "inport").bind Value.given?)
  attrs := .ofKeywords attrs.withoutPorts

/-- The graph with further edges, whose numbers are taken. -/
def withEdges (added : List Edge) (g : Graph) : Graph :=
  { g with edges := g.edges ++ added, nextEdge := g.nextEdge + added.length }

theorem insertEdge_eq_withEdges (tail head : Endpoint) (attrs : Keywords) :
    g.insertEdge tail head attrs
      = (g.nextEdge, g.withEdges [edgeBetween attrs g.nextEdge tail head]) :=
  rfl

theorem withEdges_nil (g : Graph) : g.withEdges [] = g := by
  simp [withEdges]

theorem withEdges_append (first second : List Edge) (g : Graph) :
    g.withEdges (first ++ second) = (g.withEdges first).withEdges second := by
  simp [withEdges, Nat.add_assoc]

/-- Edges from every end to the one after it, numbered from the given number on. -/
def edgesAlong (attrs : Keywords) : Nat → List Endpoint → List Edge
  | number, first :: second :: rest =>
      edgeBetween attrs number first second :: edgesAlong attrs (number + 1) (second :: rest)
  | _, _ => []

theorem map_id_edgesAlong (attrs : Keywords) (number : Nat) (ends : List Endpoint) :
    (edgesAlong attrs number ends).map Edge.id = List.range' number (ends.length - 1) := by
  induction ends generalizing number with
  | nil => rfl
  | cons first rest ih =>
      cases rest with
      | nil => rfl
      | cons second later =>
          rw [edgesAlong, List.map_cons, ih]
          rfl

theorem getElem?_edgesAlong (attrs : Keywords) (number i : Nat) {ends : List Endpoint}
    {tail head : Endpoint} (tail_at : ends[i]? = some tail) (head_at : ends[i + 1]? = some head) :
    (edgesAlong attrs number ends)[i]? = some (edgeBetween attrs (number + i) tail head) := by
  induction ends generalizing number i with
  | nil => cases tail_at
  | cons first rest ih =>
      cases rest with
      | nil => cases i <;> cases head_at
      | cons second later =>
          cases i with
          | zero =>
              cases tail_at
              cases head_at
              rfl
          | succ i =>
              have further := ih (number + 1) i tail_at head_at
              rw [edgesAlong, List.getElem?_cons_succ, further, Nat.add_right_comm, Nat.add_assoc]

theorem endpoint_withEdges (added : List Edge) (v : Value) :
    (g.withEdges added).endpoint v = g.endpoint v :=
  endpoint_congr rfl v

theorem endpoints_withEdges (added : List Edge) (items : List Value) :
    (g.withEdges added).endpoints items = g.endpoints items := by
  have same_vertices : (g.withEdges added).vertices = g.vertices := rfl
  exact endpoints_congr same_vertices items

theorem addEdges_cons_of_found {attrs : Keywords} {tail head : Value} {t h : Endpoint}
    (no_clash : attrs.clashesWith ["tail", "head"] = false)
    (tail_found : g.endpoint tail = .ok t) (head_found : g.endpoint head = .ok h)
    (pairs : List (Value × Value)) :
    g.addEdges attrs ((tail, head) :: pairs)
      = (((g.withEdges [edgeBetween attrs g.nextEdge t h]).addEdges attrs pairs).1.map
          (g.nextEdge :: ·),
        ((g.withEdges [edgeBetween attrs g.nextEdge t h]).addEdges attrs pairs).2) := by
  rw [addEdges_cons, addEdge_of_found no_clash tail_found head_found, insertEdge_eq_withEdges]

theorem addEdges_cons_of_refused {attrs : Keywords} {tail head : Value} {e : Error}
    (no_clash : attrs.clashesWith ["tail", "head"] = false)
    (refused : g.endpoint tail = .error e ∨
      ∃ t, g.endpoint tail = .ok t ∧ g.endpoint head = .error e)
    (pairs : List (Value × Value)) : g.addEdges attrs ((tail, head) :: pairs) = (.error e, g) := by
  have no_edge : g.addEdge tail head attrs = (.error e, g) := by
    rw [addEdge, Action.check_of_ok g (Keywords.checkNames_of_free no_clash), Action.ask_bind]
    rcases refused with no_tail | ⟨t, tail_found, no_head⟩
    · rw [no_tail]
    · rw [tail_found]
      dsimp only
      rw [Action.ask_bind, no_head]
  rw [addEdges_cons, no_edge]

/-- A chain along ends that are all found adds an edge from each to the next. -/
theorem addEdges_links_of_found {attrs : Keywords} {items : List Value} {ends : List Endpoint}
    (no_clash : attrs.clashesWith ["tail", "head"] = false)
    (found : g.endpoints items = .ok ends) :
    g.addEdges attrs (links items)
      = (.ok (List.range' g.nextEdge (ends.length - 1)),
        g.withEdges (edgesAlong attrs g.nextEdge ends)) := by
  induction items generalizing g ends with
  | nil =>
      cases found
      exact congrArg (Prod.mk _) g.withEdges_nil.symm
  | cons first rest ih =>
      obtain ⟨first_end, first_found, found⟩ := bind_eq_ok_iff.1 found
      obtain ⟨later_ends, later_found, answer⟩ := bind_eq_ok_iff.1 found
      cases answer
      cases rest with
      | nil =>
          cases later_found
          exact congrArg (Prod.mk _) g.withEdges_nil.symm
      | cons second later =>
          obtain ⟨second_end, second_found, rest_found⟩ := bind_eq_ok_iff.1 later_found
          obtain ⟨others, _, answer⟩ := bind_eq_ok_iff.1 rest_found
          cases answer
          have again := ih ((endpoints_withEdges
            [edgeBetween attrs g.nextEdge first_end second_end] _).trans later_found)
          rw [links, addEdges_cons_of_found no_clash first_found second_found, again,
            ← withEdges_append]
          rfl

theorem links_append (init rest : List Value) (item : Value) :
    links (init ++ item :: rest) = links (init ++ [item]) ++ links (item :: rest) := by
  induction init with
  | nil => rfl
  | cons first later ih =>
      cases later with
      | nil => rfl
      | cons second others =>
          simp only [List.cons_append] at ih
          simp only [List.cons_append, links, ih]

theorem addEdges_append_of_ok {attrs : Keywords} {pairs others : List (Value × Value)}
    {numbers : List Nat} {grown : Graph} (added : g.addEdges attrs pairs = (.ok numbers, grown)) :
    g.addEdges attrs (pairs ++ others)
      = ((grown.addEdges attrs others).1.map (numbers ++ ·), (grown.addEdges attrs others).2) := by
  induction pairs generalizing g numbers with
  | nil =>
      cases added
      rw [List.nil_append]
      generalize grown.addEdges attrs others = answer
      obtain ⟨result, final⟩ := answer
      cases result <;> rfl
  | cons pair rest ih =>
      obtain ⟨tail, head⟩ := pair
      rw [addEdges_cons] at added
      rw [List.cons_append, addEdges_cons]
      generalize g.addEdge tail head attrs = first at added ⊢
      obtain ⟨answer, next⟩ := first
      cases answer with
      | error e => cases added
      | ok number =>
          dsimp only at added ⊢
          cases middle : next.addEdges attrs rest with
          | mk result after =>
              simp only [middle] at added
              cases result with
              | error e => cases added
              | ok ids =>
                  cases added
                  simp only [ih middle]
                  cases (grown.addEdges attrs others).1 <;> rfl

/-- A chain along ends of which one is refused leaves the edges along the ends in front of it. -/
theorem addEdges_links_of_refused {attrs : Keywords} {before later : List Value} {item : Value}
    {ends : List Endpoint} {e : Error} (no_clash : attrs.clashesWith ["tail", "head"] = false)
    (found : g.endpoints before = .ok ends) (refused : g.endpoint item = .error e)
    (several : 2 ≤ (before ++ item :: later).length) :
    g.addEdges attrs (links (before ++ item :: later))
      = (.error e, g.withEdges (edgesAlong attrs g.nextEdge ends)) := by
  rcases List.eq_nil_or_concat' before with rfl | ⟨init, last, rfl⟩
  · cases found
    cases later with
    | nil => simp at several
    | cons next others =>
        rw [List.nil_append, links, addEdges_cons_of_refused no_clash (.inl refused)]
        exact congrArg (Prod.mk _) g.withEdges_nil.symm
  · obtain ⟨last_end, last_found⟩ := endpoint_of_endpoints found (v := last) (by simp)
    have along := addEdges_links_of_found no_clash found
    have no_edge : (g.withEdges (edgesAlong attrs g.nextEdge ends)).addEdges attrs
        (links (last :: item :: later))
          = (.error e, g.withEdges (edgesAlong attrs g.nextEdge ends)) := by
      refine addEdges_cons_of_refused no_clash (.inr ⟨last_end, ?_, ?_⟩) _
      · rw [endpoint_withEdges, last_found]
      · rw [endpoint_withEdges, refused]
    rw [List.append_assoc, List.singleton_append, links_append, addEdges_append_of_ok along,
      no_edge]
    rfl

/-- How a chain along items ends.  It is refused exactly when one of at least two items is no end,
and it leaves then what the chain along the items in front of the first such one leaves. -/
structure ChainKeepsPrefix (g : Graph) (endpoints : Value) (items : List Value)
    (attrs : Keywords) : Prop where
  refused_iff : (∃ e, (g.chain endpoints attrs).1 = .error e) ↔
    2 ≤ items.length ∧ ∃ item ∈ items, ¬g.IsEnd item
  prefix_left : ∀ e, (g.chain endpoints attrs).1 = .error e →
    ∃ before item later, items = before ++ item :: later ∧ (∀ v ∈ before, g.IsEnd v) ∧
      ¬g.IsEnd item ∧ g.endpoint item = .error e ∧
      (g.chain endpoints attrs).2 = (g.chain (.list before) attrs).2
  /-- Each new edge joins an item to the next one; there is none along fewer than two items. -/
  connected : ∀ numbers, (g.chain endpoints attrs).1 = .ok numbers →
    numbers = List.range' g.nextEdge (items.length - 1) ∧
    ∃ added, (g.chain endpoints attrs).2 = g.withEdges added ∧ added.map Edge.id = numbers ∧
      ∀ i first second, items[i]? = some first → items[i + 1]? = some second →
        ∃ tail head, g.NamesEnd first tail ∧ g.NamesEnd second head ∧
          added[i]? = some (edgeBetween attrs (g.nextEdge + i) tail head)

theorem chain_of_elements {endpoints : Value} {items : List Value} {attrs : Keywords}
    (listed : endpoints.elements = .ok items) (free : attrs.clashesWith ["endpoints"] = false) :
    g.chain endpoints attrs = g.addEdges attrs (links items) := by
  rw [chain, Action.check_of_ok g (Keywords.checkNames_of_free free), Action.check_of_ok g listed]

theorem chainKeepsPrefix_of_found (c : g.Consistent) {endpoints : Value} {items : List Value}
    {attrs : Keywords} {ends : List Endpoint} (found : g.endpoints items = .ok ends)
    (along : g.chain endpoints attrs = (.ok (List.range' g.nextEdge (ends.length - 1)),
      g.withEdges (edgesAlong attrs g.nextEdge ends))) :
    ChainKeepsPrefix g endpoints items attrs where
  refused_iff := by
    constructor
    · rintro ⟨e, refused⟩
      rw [along] at refused
      cases refused
    · rintro ⟨_, item, member, not_end⟩
      exact absurd (c.isEnd_of_endpoints found item member) not_end
  prefix_left := by
    intro e refused
    rw [along] at refused
    cases refused
  connected := by
    intro numbers answered
    rw [along] at answered ⊢
    cases answered
    refine ⟨by rw [length_endpoints found], _, rfl, map_id_edgesAlong attrs _ ends, ?_⟩
    intro i first second first_at second_at
    obtain ⟨tail, tail_at, tail_found⟩ := getElem?_endpoints found first_at
    obtain ⟨head, head_at, head_found⟩ := getElem?_endpoints found second_at
    exact ⟨tail, head, c.endpoint_eq_ok_iff.1 tail_found, c.endpoint_eq_ok_iff.1 head_found,
      getElem?_edgesAlong attrs _ i tail_at head_at⟩

theorem chainKeepsPrefix_of_refused (c : g.Consistent) {endpoints item : Value}
    {before later : List Value} {attrs : Keywords} {ends : List Endpoint} {e : Error}
    (found : g.endpoints before = .ok ends) (refused : g.endpoint item = .error e)
    (several : 2 ≤ (before ++ item :: later).length)
    (broken : g.chain endpoints attrs = (.error e, g.withEdges (edgesAlong attrs g.nextEdge ends)))
    (along : g.chain (.list before) attrs = (.ok (List.range' g.nextEdge (ends.length - 1)),
      g.withEdges (edgesAlong attrs g.nextEdge ends))) :
    ChainKeepsPrefix g endpoints (before ++ item :: later) attrs where
  refused_iff := by
    rw [broken]
    exact iff_of_true ⟨e, rfl⟩ ⟨several, item, by simp, c.not_isEnd refused⟩
  prefix_left := by
    intro first_error answered
    rw [broken] at answered ⊢
    cases answered
    exact ⟨before, item, later, rfl, c.isEnd_of_endpoints found, c.not_isEnd refused, refused,
      by rw [along]⟩
  connected := by
    intro numbers answered
    rw [broken] at answered
    cases answered

theorem Consistent.chainKeepsPrefix (c : g.Consistent) {endpoints : Value} {items : List Value}
    {attrs : Keywords} (listed : endpoints.elements = .ok items)
    (no_clash : attrs.clashesWith ["endpoints", "tail", "head"] = false) :
    ChainKeepsPrefix g endpoints items attrs := by
  have free := Keywords.clashesWith_eq_false_iff.1 no_clash
  have chain_free : attrs.clashesWith ["endpoints"] = false := by
    refine Keywords.clashesWith_eq_false_iff.2 fun name member => ⟨(free name member).1, ?_⟩
    exact fun taken => (free name member).2 (List.mem_append_left ["tail", "head"] taken)
  have edges_free : attrs.clashesWith ["tail", "head"] = false := by
    refine Keywords.clashesWith_eq_false_iff.2 fun name member => ⟨(free name member).1, ?_⟩
    exact fun taken => (free name member).2 (List.mem_cons_of_mem _ taken)
  have whole : g.chain endpoints attrs = g.addEdges attrs (links items) :=
    chain_of_elements listed chain_free
  rcases ends_cases g items with ⟨ends, found⟩ |
    ⟨before, item, later, ends, e, rfl, found, refused⟩
  · exact chainKeepsPrefix_of_found c found
      (whole.trans (addEdges_links_of_found edges_free found))
  · by_cases several : 2 ≤ (before ++ item :: later).length
    · have kept : g.chain (.list before) attrs = g.addEdges attrs (links before) :=
        chain_of_elements rfl chain_free
      exact chainKeepsPrefix_of_refused c found refused several
        (whole.trans (addEdges_links_of_refused edges_free found refused several))
        (kept.trans (addEdges_links_of_found edges_free found))
    · obtain ⟨rfl, rfl⟩ : before = [] ∧ later = [] := by
        simp only [List.length_append, List.length_cons] at several
        exact ⟨List.length_eq_zero_iff.1 (by omega), List.length_eq_zero_iff.1 (by omega)⟩
      have nothing : g.chain endpoints attrs = (.ok [], g) := whole
      refine ⟨?_, ?_, ?_⟩
      · rw [nothing]
        exact iff_of_false nofun fun two => several two.1
      · intro first_error answered
        rw [nothing] at answered
        cases answered
      · intro numbers answered
        rw [nothing] at answered ⊢
        cases answered
        exact ⟨rfl, [], g.withEdges_nil.symm, rfl, fun i _ _ _ second_at => by simp at second_at⟩

end Graph
end DotDoc
