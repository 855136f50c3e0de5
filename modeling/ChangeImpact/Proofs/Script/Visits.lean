import ChangeImpact.Proofs.Rounds
import ChangeImpact.Script.Node
import Mathlib.Data.List.Nodup

/-!
# Visiting a syntax tree

A tree can be visited with a stack: the node on top is taken off and looked at, and its children are put on the
stack with the leftmost on top.  In between the stack holds the right-hand siblings of several nodes on the way
to the current one, so what it says about the tree has to be said about all of it at once: the nodes that are
still to be visited are those of the trees on the stack, one tree after the other from the top, each tree with
its root before the trees of the children (`Visit.pending`).  A round takes the first of these nodes and
leaves the others in their order (`Visit.next?_eq_some`), and so the visit is over after as many rounds as there
are nodes (`Visit.endsAfter`).

Nodes that look the same can stand in several places of a tree.  A visit keeps them apart by the way to each of
them.
-/

namespace ChangeImpact.Script.Node

/-! ## Nodes and their children -/

theorem preorderAll_eq (children : List (Option Role × Node)) :
    preorderAll children = (children.map (·.2)).flatMap preorder := by
  induction children with
  | nil => rfl
  | cons child children ih => rw [preorderAll, ih, List.map_cons, List.flatMap_cons]

/-- A node comes before the trees of its children. -/
theorem preorder_eq (n : Node) : n.preorder = n :: n.children.flatMap preorder := by
  cases n with
  | node kind named text parts => rw [preorder, preorderAll_eq]; rfl

theorem size_eq (n : Node) : n.size = pendingSize n.children + 1 := by
  cases n with
  | node kind named text parts => rw [size, children, pendingSize_map]; rfl

theorem size_lt_of_mem_children {n child : Node} (h : child ∈ n.children) : child.size < n.size := by
  obtain ⟨before, after, hchildren⟩ := List.append_of_mem h
  rw [size_eq n, hchildren, pendingSize_append, pendingSize]
  omega

/-- What holds of a node if it holds of the children holds of every node. -/
@[elab_as_elim]
theorem induction_children {motive : Node → Prop}
    (h : ∀ n, (∀ child ∈ n.children, motive child) → motive n) (n : Node) : motive n :=
  h n fun child _ => induction_children h child
termination_by n.size
decreasing_by exact size_lt_of_mem_children ‹_›

theorem length_flatMap_preorder {nodes : List Node} (h : ∀ n ∈ nodes, n.preorder.length = n.size) :
    (nodes.flatMap preorder).length = pendingSize nodes := by
  induction nodes with
  | nil => rfl
  | cons n nodes ih =>
      rw [List.flatMap_cons, List.length_append, pendingSize, h n List.mem_cons_self,
        ih fun other hother => h other (List.mem_cons_of_mem n hother)]

theorem length_preorder (n : Node) : n.preorder.length = n.size := by
  induction n using induction_children with
  | h n ih => rw [preorder_eq, List.length_cons, length_flatMap_preorder ih, size_eq]

/-- The modules that a tree names are those that its nodes name. -/
theorem collect_eq (pending : List Node) :
    collect pending = (pending.flatMap preorder).filterMap specifier? := by
  fun_induction collect pending with
  | case1 => rfl
  | case2 n pending ih =>
      rw [ih, List.flatMap_cons, preorder_eq n, List.cons_append, List.filterMap_cons, List.flatMap_append]
      cases n.specifier? <;> rfl

theorem specifiers_eq (tree : Node) : tree.specifiers = tree.preorder.filterMap specifier? := by
  rw [specifiers, collect_eq, List.flatMap_singleton]

/-! ## Ways -/

/-- The node to which a way leads, from child to child. -/
def at? (n : Node) : List Nat → Option Node
  | [] => some n
  | index :: way => n.children[index]?.bind fun child => child.at? way

/-- A node of a tree, and the way to it. -/
@[ext]
structure Placed where
  way : List Nat
  node : Node

namespace Placed

/-- The children with their ways, from left to right. -/
def children (place : Placed) : List Placed :=
  place.node.children.zipIdx.map fun (child, index) => ⟨place.way ++ [index], child⟩

theorem mem_children {place child : Placed} : child ∈ place.children ↔
    ∃ index, child.way = place.way ++ [index] ∧ place.node.children[index]? = some child.node := by
  rw [children, List.mem_map]
  constructor
  · rintro ⟨⟨found, index⟩, hfound, rfl⟩
    exact ⟨index, rfl, List.mem_zipIdx_iff_getElem?.mp hfound⟩
  · rintro ⟨index, hway, hnode⟩
    exact ⟨(child.node, index), List.mem_zipIdx_iff_getElem?.mpr hnode, Placed.ext hway.symm rfl⟩

theorem map_node_children (place : Placed) : place.children.map (·.node) = place.node.children := by
  rw [children, List.map_map]
  exact List.zipIdx_map_fst 0 place.node.children

theorem node_mem_children {place child : Placed} (h : child ∈ place.children) :
    child.node ∈ place.node.children :=
  place.map_node_children ▸ List.mem_map_of_mem h

/-- The nodes below a node and the node itself, with their ways and each before its children. -/
def preorder (place : Placed) : List Placed :=
  place :: place.children.attach.flatMap fun child => preorder child.1
termination_by place.node.size
decreasing_by exact size_lt_of_mem_children (node_mem_children child.2)

theorem preorder_eq (place : Placed) : place.preorder = place :: place.children.flatMap preorder := by
  rw [preorder, List.flatMap_subtype (g := preorder) fun _ _ => rfl, List.unattach_attach]

theorem map_node_preorder (place : Placed) : place.preorder.map (·.node) = place.node.preorder := by
  induction place using preorder.induct with
  | case1 place ih =>
      rw [preorder_eq, Node.preorder_eq, List.map_cons, List.map_flatMap, ← map_node_children, List.flatMap_map]
      exact congrArg _ (List.flatMap_congr fun child hchild => ih ⟨child, hchild⟩)

/-- The nodes below a place are those to which a way leads from there. -/
theorem mem_preorder {place other : Placed} : other ∈ place.preorder ↔
    ∃ way, other.way = place.way ++ way ∧ place.node.at? way = some other.node := by
  induction place using preorder.induct with
  | case1 place ih =>
      rw [preorder_eq, List.mem_cons, List.mem_flatMap]
      constructor
      · rintro (rfl | ⟨child, hchild, hother⟩)
        · exact ⟨[], (List.append_nil _).symm, rfl⟩
        · obtain ⟨index, hindex, hnode⟩ := mem_children.mp hchild
          obtain ⟨way, hway, hfound⟩ := (ih ⟨child, hchild⟩).mp hother
          refine ⟨index :: way, by rw [hway, hindex, List.append_assoc]; rfl, ?_⟩
          rw [at?, hnode]
          exact hfound
      · rintro ⟨way, hway, hfound⟩
        -- the first step of the way leads to a child, and the rest of it on from there
        cases way with
        | nil => exact .inl (Placed.ext (hway.trans (List.append_nil _)) (Option.some.inj hfound).symm)
        | cons index way =>
            obtain ⟨child, hchild, hfound⟩ := Option.bind_eq_some_iff.mp hfound
            have hmem : ⟨place.way ++ [index], child⟩ ∈ place.children := mem_children.mpr ⟨index, rfl, hchild⟩
            refine .inr ⟨_, hmem, (ih ⟨_, hmem⟩).mpr ⟨way, ?_, hfound⟩⟩
            rw [hway, List.append_assoc]
            rfl

/-- The ways to different children part at once. -/
theorem pairwise_children (place : Placed) : place.children.Pairwise fun first second =>
    ∀ one other, first.way ++ one ≠ second.way ++ other := by
  rw [children, List.pairwise_map]
  have hindices : (place.node.children.zipIdx.map (·.2)).Nodup := by
    rw [List.zipIdx_map_snd]
    exact List.nodup_range'
  refine (List.pairwise_map.mp hindices).imp fun hne one other heq => hne ?_
  rw [List.append_assoc, List.append_assoc, List.append_cancel_left_eq] at heq
  exact (List.cons.inj heq).1

theorem nodup_preorder (place : Placed) : (place.preorder.map (·.way)).Nodup := by
  induction place using preorder.induct with
  | case1 place ih =>
      rw [preorder_eq, List.map_cons, List.nodup_cons, List.map_flatMap, List.nodup_flatMap]
      refine ⟨fun hagain => ?_, fun child hchild => ih ⟨child, hchild⟩, ?_⟩
      · -- every way below the place is longer
        obtain ⟨child, hchild, hagain⟩ := List.mem_flatMap.mp hagain
        obtain ⟨other, hother, hway⟩ := List.mem_map.mp hagain
        obtain ⟨way, hlonger, -⟩ := mem_preorder.mp hother
        obtain ⟨index, hindex, -⟩ := mem_children.mp hchild
        rw [hlonger, hindex, List.append_assoc, List.append_right_eq_self] at hway
        cases hway
      · refine (pairwise_children place).imp fun hparted way hfirst hsecond => ?_
        obtain ⟨one, hone, rfl⟩ := List.mem_map.mp hfirst
        obtain ⟨other, hother, heq⟩ := List.mem_map.mp hsecond
        obtain ⟨_, hone, -⟩ := mem_preorder.mp hone
        obtain ⟨_, hother, -⟩ := mem_preorder.mp hother
        exact hparted _ _ (hone.symm.trans (heq.symm.trans hother))

end Placed

/-! ## Visits -/

/-- A visit of a tree. -/
structure Visit where
  /-- The nodes that have been put on the stack and not been taken off, the top one last. -/
  stack : List Placed
  /-- The nodes that have been taken off. -/
  visited : List Placed
  /-- The modules that these nodes name. -/
  found : List String

namespace Visit

/-- The root is on the stack. -/
def start (tree : Node) : Visit := ⟨[⟨[], tree⟩], [], []⟩

/-- Takes the top node off the stack and puts its children on it, the rightmost first. -/
def next? (visit : Visit) : Option Visit :=
  visit.stack.getLast?.map fun place =>
    { stack := visit.stack.dropLast ++ place.children.reverse
      visited := visit.visited ++ [place]
      found := visit.found ++ place.node.specifier?.toList }

/-- The nodes that are still to be visited. -/
def pending (visit : Visit) : List Placed := visit.stack.reverse.flatMap Placed.preorder

/-- The top node comes first, then the nodes below it, and then those that are further down on the stack. -/
theorem pending_concat (below visited : List Placed) (top : Placed) (found : List String) :
    pending ⟨below ++ [top], visited, found⟩ =
      top :: (top.children ++ below.reverse).flatMap Placed.preorder := by
  rw [pending, List.reverse_concat, List.flatMap_cons, Placed.preorder_eq, List.cons_append,
    List.flatMap_append]

/-- A round visits the first of the pending nodes and leaves the others in their order. -/
theorem next?_eq_some {visit : Visit} {place : Placed} {rest : List Placed} (h : visit.pending = place :: rest) :
    ∃ after, visit.next? = some after ∧ after.pending = rest ∧ after.visited = visit.visited ++ [place] ∧
      after.found = visit.found ++ place.node.specifier?.toList := by
  obtain ⟨stack, visited, found⟩ := visit
  rcases List.eq_nil_or_concat' stack with rfl | ⟨below, top, rfl⟩
  · cases h
  · rw [pending_concat, List.cons.injEq] at h
    obtain ⟨rfl, rfl⟩ := h
    refine ⟨_, by rw [next?, List.getLast?_concat]; rfl, ?_, rfl, rfl⟩
    rw [pending, List.dropLast_concat, List.reverse_append, List.reverse_reverse]

/-- As long as there is something on the stack, it is pending. -/
theorem stack_eq_nil {visit : Visit} (h : visit.pending = []) : visit.stack = [] := by
  obtain ⟨stack, visited, found⟩ := visit
  rcases List.eq_nil_or_concat' stack with rfl | ⟨below, top, rfl⟩
  · rfl
  · rw [pending_concat] at h
    cases h

/-- A visit is over when all pending nodes have been visited, in their order. -/
theorem endsAfter {visit : Visit} {nodes : List Placed} (h : visit.pending = nodes) :
    EndsAfter next? nodes.length visit
      ⟨[], visit.visited ++ nodes, visit.found ++ nodes.filterMap (·.node.specifier?)⟩ := by
  -- each round visits the first of the pending nodes, so there are as many rounds as nodes
  induction nodes generalizing visit with
  | nil =>
      obtain ⟨stack, visited, found⟩ := visit
      obtain rfl : stack = [] := stack_eq_nil h
      rw [List.filterMap_nil, List.append_nil, List.append_nil]
      exact ⟨.none _, rfl⟩
  | cons place rest ih =>
      obtain ⟨after, hround, hpending, hvisited, hfound⟩ := next?_eq_some h
      obtain ⟨hrounds, hended⟩ := ih hpending
      have hnames : (place :: rest).filterMap (·.node.specifier?) =
          place.node.specifier?.toList ++ rest.filterMap (·.node.specifier?) := by
        rw [List.filterMap_cons]
        cases place.node.specifier? <;> rfl
      rw [hvisited, hfound, List.append_assoc, List.append_assoc, ← hnames] at hrounds
      exact ⟨.more hround hrounds, hended⟩

end Visit

/-- A visit with a stack ends after as many rounds as the tree has nodes.  It has then visited the nodes in preorder,
each before its children and these from left to right; it has been at the end of every way through the tree, and
nowhere twice; and it has found what the nodes name in this order. -/
theorem visit_in_preorder (tree : Node) :
    ∃ visited : List Placed,
      EndsAfter Visit.next? tree.size (.start tree) ⟨[], visited, tree.specifiers⟩ ∧
      visited.map (·.node) = tree.preorder ∧
      (∀ way n, ⟨way, n⟩ ∈ visited ↔ tree.at? way = some n) ∧
      (visited.map (·.way)).Nodup ∧
      tree.specifiers = tree.preorder.filterMap specifier? := by
  have hpending : (Visit.start tree).pending = Placed.preorder ⟨[], tree⟩ := List.flatMap_singleton ..
  have hnodes : (Placed.preorder ⟨[], tree⟩).map (·.node) = tree.preorder := Placed.map_node_preorder _
  have hfound : (Placed.preorder ⟨[], tree⟩).filterMap (·.node.specifier?) = tree.specifiers := by
    rw [specifiers_eq, ← hnodes, List.filterMap_map]
    rfl
  have hlength : (Placed.preorder ⟨[], tree⟩).length = tree.size := by
    rw [← length_preorder, ← hnodes, List.length_map]
  have hends := Visit.endsAfter hpending
  rw [hfound, hlength] at hends
  refine ⟨Placed.preorder ⟨[], tree⟩, hends, hnodes, fun way n => ?_, Placed.nodup_preorder _, specifiers_eq tree⟩
  rw [Placed.mem_preorder]
  constructor
  · rintro ⟨_, rfl, hfound⟩
    exact hfound
  · exact fun hfound => ⟨way, rfl, hfound⟩

end ChangeImpact.Script.Node
