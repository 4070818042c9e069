import Mathlib.Algebra.BigOperators.Group.List.Basic
import Mathlib.Algebra.GroupWithZero.Nat
import Mathlib.Data.List.Nodup
import Mathlib.Data.List.Perm.Basic
import Mathlib.Data.Nat.Init
import Mathlib.Tactic.Common

/-!
# Walks over listings in pages

A walk visits the nodes of a forest from a stack.  What is below a node is listed in
pages, each with items and further nodes, and one listing is read to its end before the
next node is taken from the stack.  The outermost listing goes on when the stack is empty.
-/

namespace Httpfs.Transition

/-- A page of a listing: the request it answers, its items and the nodes it names. -/
structure Page (κ ν ι : Type) where
  request : κ
  items : List ι
  nodes : List ν

/-- What a walk has left: pages of the outermost listing, the node that is being listed
with its pages, and the nodes to visit. -/
structure PagedWalk (κ ν ι : Type) where
  outer : List (Page κ ν ι)
  current : Option (ν × List (Page κ ν ι))
  stack : List ν

namespace PagedWalk

variable {κ ν ι : Type} {expand : ν → List (Page κ ν ι)}

/-! ## Steps -/

variable (expand) in
/-- The last node of the stack is listed. -/
def select (outer : List (Page κ ν ι)) (stack : List ν) : PagedWalk κ ν ι :=
  match stack.getLast? with
  | none => ⟨outer, none, []⟩
  | some node => ⟨outer, some (node, expand node), stack.dropLast⟩

variable (expand) in
/-- Where no page of a node is left, another node is selected. -/
def settle (walk : PagedWalk κ ν ι) : PagedWalk κ ν ι :=
  match walk.current with
  | some (_, _ :: _) => walk
  | some (_, []) => select expand walk.outer walk.stack
  | none => select expand walk.outer walk.stack

/-- A page is read: its nodes go to the stack.  A node without pages is passed over. -/
inductive Reads : PagedWalk κ ν ι → Option (Page κ ν ι) → PagedWalk κ ν ι → Prop
  | pass {outer : List (Page κ ν ι)} {node : ν} {stack : List ν} :
      Reads ⟨outer, some (node, []), stack⟩ none ⟨outer, none, stack⟩
  | current {outer rest : List (Page κ ν ι)} {node : ν} {page : Page κ ν ι} {stack : List ν} :
      Reads ⟨outer, some (node, page :: rest), stack⟩ (some page)
        ⟨outer, some (node, rest), stack ++ page.nodes⟩
  | outer {rest : List (Page κ ν ι)} {page : Page κ ν ι} {stack : List ν} :
      Reads ⟨page :: rest, none, stack⟩ (some page) ⟨rest, none, stack ++ page.nodes⟩

variable (expand) in
/-- One step of a walk. -/
def Step (walk : PagedWalk κ ν ι) (page : Option (Page κ ν ι)) (next : PagedWalk κ ν ι) : Prop :=
  ∃ after, Reads walk page after ∧ next = after.settle expand

@[simp]
theorem select_nil (outer : List (Page κ ν ι)) : select expand outer [] = ⟨outer, none, []⟩ :=
  rfl

@[simp]
theorem select_concat (outer : List (Page κ ν ι)) (front : List ν) (node : ν) :
    select expand outer (front ++ [node]) = ⟨outer, some (node, expand node), front⟩ := by
  rw [select, List.getLast?_concat]
  simp only [List.dropLast_concat]

/-! ## What is left -/

def currentPages (walk : PagedWalk κ ν ι) : List (Page κ ν ι) :=
  match walk.current with
  | none => []
  | some (_, pages) => pages

/-- The pages of the listings that are under way. -/
def pages (walk : PagedWalk κ ν ι) : List (Page κ ν ι) :=
  walk.currentPages ++ walk.outer

/-- The nodes that are still to be listed. -/
def pending (walk : PagedWalk κ ν ι) : List ν :=
  walk.stack ++ walk.pages.flatMap Page.nodes

/-- The pages of the listings under way, and the node under way. -/
def size (walk : PagedWalk κ ν ι) : Nat :=
  walk.pages.length + if walk.current.isSome then 1 else 0

theorem Reads.pages {walk after : PagedWalk κ ν ι} {page : Option (Page κ ν ι)}
    (reads : Reads walk page after) : walk.pages = page.toList ++ after.pages := by
  cases reads with
  | pass => rfl
  | current => rfl
  | outer => rfl

theorem Reads.size_lt {walk after : PagedWalk κ ν ι} {page : Option (Page κ ν ι)}
    (reads : Reads walk page after) : after.size < walk.size := by
  cases reads with
  | pass => exact Nat.lt_succ_self _
  | current => simp [size, PagedWalk.pages, currentPages]
  | outer => simp [size, PagedWalk.pages, currentPages]

theorem Reads.pending {walk after : PagedWalk κ ν ι} {page : Option (Page κ ν ι)}
    (reads : Reads walk page after) : after.pending = walk.pending := by
  cases reads with
  | pass => rfl
  | current => simp [PagedWalk.pending, PagedWalk.pages, currentPages]
  | outer => simp [PagedWalk.pending, PagedWalk.pages, currentPages]

/-- A walk whose last node of the stack is to be listed next. -/
structure Selects (walk : PagedWalk κ ν ι) (front : List ν) (node : ν) : Prop where
  stack : walk.stack = front ++ [node]
  idle : walk.currentPages = []

theorem Selects.pages {walk : PagedWalk κ ν ι} {front : List ν} {node : ν}
    (selects : walk.Selects front node) : walk.pages = walk.outer := by
  rw [PagedWalk.pages, selects.idle, List.nil_append]

theorem Selects.pending {walk : PagedWalk κ ν ι} {front : List ν} {node : ν}
    (selects : walk.Selects front node) :
    walk.pending.Perm (node :: (front ++ walk.outer.flatMap Page.nodes)) := by
  rw [PagedWalk.pending, selects.pages, selects.stack, List.append_assoc]
  exact List.perm_middle

/-- A walk that goes on without another node. -/
structure Keeps (walk settled : PagedWalk κ ν ι) : Prop where
  pages : settled.pages = walk.pages
  stack : settled.stack = walk.stack
  size : settled.size ≤ walk.size

theorem Keeps.pending {walk settled : PagedWalk κ ν ι} (keeps : Keeps walk settled) :
    settled.pending = walk.pending := by
  rw [PagedWalk.pending, keeps.pages, keeps.stack, PagedWalk.pending]

/-- Settling keeps what is left as it is, or lists the last node. -/
theorem settle_cases (walk : PagedWalk κ ν ι) :
    Keeps walk (walk.settle expand) ∨
      ∃ front node, walk.Selects front node ∧
        walk.settle expand = ⟨walk.outer, some (node, expand node), front⟩ := by
  have selects (outer : List (Page κ ν ι)) (current : Option (ν × List (Page κ ν ι)))
      (stack : List ν) (idle : currentPages ⟨outer, current, stack⟩ = []) :
      Keeps ⟨outer, current, stack⟩ (select expand outer stack) ∨
        ∃ front node, Selects ⟨outer, current, stack⟩ front node ∧
          select expand outer stack = ⟨outer, some (node, expand node), front⟩ := by
    rcases List.eq_nil_or_concat' stack with rfl | ⟨front, node, rfl⟩
    · have pages : PagedWalk.pages ⟨outer, current, []⟩ = outer := by
        rw [PagedWalk.pages, idle, List.nil_append]
      refine .inl ⟨pages.symm, rfl, ?_⟩
      rw [size, size, pages]
      exact Nat.le_add_right _ _
    · exact .inr ⟨front, node, ⟨rfl, idle⟩, select_concat outer front node⟩
  rcases walk with ⟨outer, current, stack⟩
  cases current with
  | none => exact selects outer none stack rfl
  | some current =>
      rcases current with ⟨node, pages⟩
      cases pages with
      | nil => exact selects outer (some (node, [])) stack rfl
      | cons page rest => exact .inl ⟨rfl, rfl, Nat.le_refl _⟩

/-- The nodes left once a node is listed are those below it and the others. -/
theorem pending_selected (outer : List (Page κ ν ι)) (front : List ν) (node : ν) :
    (⟨outer, some (node, expand node), front⟩ : PagedWalk κ ν ι).pending.Perm
      ((expand node).flatMap Page.nodes ++ (front ++ outer.flatMap Page.nodes)) := by
  rw [PagedWalk.pending, PagedWalk.pages, currentPages, List.flatMap_append]
  dsimp only
  rw [← List.append_assoc, ← List.append_assoc]
  exact List.perm_append_comm.append_right _

/-- The node that is listed after a step was listed before or is taken from those left. -/
theorem Step.current {walk next : PagedWalk κ ν ι} {page : Option (Page κ ν ι)}
    (steps : Step expand walk page next) {node : ν} {pages : List (Page κ ν ι)}
    (current : next.current = some (node, pages)) :
    node ∈ walk.pending ∨ ∃ before, walk.current = some (node, before) := by
  rcases steps with ⟨after, reads, rfl⟩
  have selected (outer : List (Page κ ν ι)) (stack : List ν)
      (isSelected : (select expand outer stack).current = some (node, pages)) : node ∈ stack := by
    rcases List.eq_nil_or_concat' stack with rfl | ⟨front, last, rfl⟩
    · contradiction
    · rw [select_concat] at isSelected
      cases isSelected
      exact List.mem_append_right front (List.mem_singleton_self _)
  have fromStack (inStack : node ∈ after.stack) : node ∈ walk.pending := by
    rw [← reads.pending]
    exact List.mem_append_left _ inStack
  cases reads with
  | pass => exact .inl (fromStack (selected _ _ current))
  | @current outer rest listed page stack =>
      cases rest with
      | nil => exact .inl (fromStack (selected _ _ current))
      | cons next rest =>
          cases current
          exact .inr ⟨_, rfl⟩
  | outer => exact .inl (fromStack (selected _ _ current))

/-! ## Walks within a set of nodes -/

section Within

variable {Node : ν → Prop}

variable (expand Node) in
/-- What is listed below the nodes of the set is in the set. -/
def Closed : Prop :=
  ∀ node, Node node → ∀ child ∈ (expand node).flatMap Page.nodes, Node child

def Within (Node : ν → Prop) (walk : PagedWalk κ ν ι) : Prop :=
  ∀ node ∈ walk.pending, Node node

theorem Within.settle {walk : PagedWalk κ ν ι} (closed : Closed expand Node)
    (within : walk.Within Node) : (walk.settle expand).Within Node := by
  rcases walk.settle_cases with keeps | ⟨front, node, selects, settled⟩
  · intro other member
    exact within other (keeps.pending ▸ member)
  · intro other member
    rw [settled, (pending_selected _ _ _).mem_iff, List.mem_append] at member
    rcases member with below | beside
    · apply closed node _ other below
      exact within node (selects.pending.mem_iff.mpr List.mem_cons_self)
    · exact within other (selects.pending.mem_iff.mpr (List.mem_cons_of_mem node beside))

theorem Within.step {walk next : PagedWalk κ ν ι} {page : Option (Page κ ν ι)}
    (closed : Closed expand Node) (within : walk.Within Node)
    (steps : Step expand walk page next) : next.Within Node := by
  rcases steps with ⟨after, reads, rfl⟩
  apply Within.settle closed
  intro node member
  exact within node (reads.pending ▸ member)

end Within

/-! ## Nothing is lost -/

section Owed

variable {owed : ν → List ι}

/-- What a page owes: its items, and what is owed for its nodes. -/
def pageOwes (owed : ν → List ι) (page : Page κ ν ι) : List ι :=
  page.items ++ page.nodes.flatMap owed

/-- What a walk owes. -/
def owes (owed : ν → List ι) (walk : PagedWalk κ ν ι) : List ι :=
  walk.stack.flatMap owed ++ walk.pages.flatMap (pageOwes owed)

variable (expand owed) in
/-- The pages of a node list what is owed for the node. -/
def Pays (node : ν) : Prop :=
  (owed node).Perm ((expand node).flatMap (pageOwes owed))

theorem Reads.owes {walk after : PagedWalk κ ν ι} {page : Option (Page κ ν ι)}
    (reads : Reads walk page after) :
    (walk.owes owed).Perm (page.toList.flatMap Page.items ++ after.owes owed) := by
  have moves (page : Page κ ν ι) (stack : List ν) (later : List ι) :
      (stack.flatMap owed ++ (pageOwes owed page ++ later)).Perm
        (page.items ++ ((stack ++ page.nodes).flatMap owed ++ later)) := by
    rw [pageOwes, List.flatMap_append, List.append_assoc, List.append_assoc]
    exact List.perm_append_comm_assoc _ _ _
  cases reads with
  | pass => exact List.Perm.refl _
  | @current outer rest node page stack =>
      have list := moves page stack ((rest ++ outer).flatMap (pageOwes owed))
      simpa [PagedWalk.owes, PagedWalk.pages, currentPages] using list
  | @outer rest page stack =>
      have list := moves page stack (rest.flatMap (pageOwes owed))
      simpa [PagedWalk.owes, PagedWalk.pages, currentPages] using list

theorem owes_settle {walk : PagedWalk κ ν ι} (pays : walk.Within (Pays expand owed)) :
    (walk.owes owed).Perm ((walk.settle expand).owes owed) := by
  rcases walk.settle_cases with keeps | ⟨front, node, selects, settled⟩
  · rw [owes, owes, keeps.pages, keeps.stack]
  · have paid : (owed node).Perm ((expand node).flatMap (pageOwes owed)) :=
      pays node (selects.pending.mem_iff.mpr List.mem_cons_self)
    rw [settled, owes, owes, selects.stack, selects.pages, PagedWalk.pages, currentPages,
      List.flatMap_append, List.flatMap_append, List.flatMap_singleton, List.append_assoc]
    exact (paid.append_right _).append_left _

/-- The items of the page that is read and what is owed then are what was owed before. -/
theorem Step.owes {walk next : PagedWalk κ ν ι} {page : Option (Page κ ν ι)}
    (steps : Step expand walk page next) (pays : walk.Within (Pays expand owed)) :
    (walk.owes owed).Perm (page.toList.flatMap Page.items ++ next.owes owed) := by
  rcases steps with ⟨after, reads, rfl⟩
  have afterPays : after.Within (Pays expand owed) := fun node member =>
    pays node (reads.pending ▸ member)
  exact reads.owes.trans ((owes_settle afterPays).append_left _)

end Owed

/-! ## Walks without an end -/

/-- Where every node of a set has another one below it, the walk has one left for ever. -/
theorem Step.exists_pending_of_recurs {walk next : PagedWalk κ ν ι} {page : Option (Page κ ν ι)}
    {Recurs : ν → Prop}
    (recurs : ∀ node, Recurs node → ∃ child ∈ (expand node).flatMap Page.nodes, Recurs child)
    (member : ∃ node ∈ walk.pending, Recurs node) (steps : Step expand walk page next) :
    ∃ node ∈ next.pending, Recurs node := by
  rcases member with ⟨node, isPending, isRecurring⟩
  rcases steps with ⟨after, reads, rfl⟩
  rw [← reads.pending] at isPending
  rcases after.settle_cases with keeps | ⟨front, other, selects, settled⟩
  · exact ⟨node, keeps.pending ▸ isPending, isRecurring⟩
  · have pending := @pending_selected _ _ _ expand after.outer front other
    rw [settled]
    rcases List.mem_cons.mp (selects.pending.mem_iff.mp isPending) with rfl | beside
    · obtain ⟨child, isChild, again⟩ := recurs node isRecurring
      exact ⟨child, pending.mem_iff.mpr (List.mem_append_left _ isChild), again⟩
    · exact ⟨node, pending.mem_iff.mpr (List.mem_append_right _ beside), isRecurring⟩

/-! ## Every walk ends -/

section Weights

variable {weight : ν → Nat}

def pendingWeight (weight : ν → Nat) (walk : PagedWalk κ ν ι) : Nat :=
  (walk.pending.map weight).sum

variable (expand weight) in
/-- The nodes below a node weigh less than the node. -/
def Lightens (node : ν) : Prop :=
  (((expand node).flatMap Page.nodes).map weight).sum < weight node

theorem settle_lighter {walk : PagedWalk κ ν ι} (lightens : walk.Within (Lightens expand weight)) :
    (walk.settle expand).pendingWeight weight < walk.pendingWeight weight ∨
      (walk.settle expand).pendingWeight weight = walk.pendingWeight weight ∧
        (walk.settle expand).size ≤ walk.size := by
  rcases walk.settle_cases with keeps | ⟨front, node, selects, settled⟩
  · right
    rw [pendingWeight, keeps.pending]
    exact ⟨rfl, keeps.size⟩
  · left
    have lighter : (((expand node).flatMap Page.nodes).map weight).sum < weight node :=
      lightens node (selects.pending.mem_iff.mpr List.mem_cons_self)
    rw [settled, pendingWeight, pendingWeight, ((pending_selected _ _ _).map weight).sum_eq,
      (selects.pending.map weight).sum_eq, List.map_append, List.sum_append, List.map_cons,
      List.sum_cons]
    exact Nat.add_lt_add_right lighter _

theorem Step.lighter {walk next : PagedWalk κ ν ι} {page : Option (Page κ ν ι)}
    (lightens : walk.Within (Lightens expand weight)) (steps : Step expand walk page next) :
    next.pendingWeight weight < walk.pendingWeight weight ∨
      next.pendingWeight weight = walk.pendingWeight weight ∧ next.size < walk.size := by
  rcases steps with ⟨after, reads, rfl⟩
  have afterLightens : after.Within (Lightens expand weight) := fun node member =>
    lightens node (reads.pending ▸ member)
  have same : after.pendingWeight weight = walk.pendingWeight weight := by
    rw [pendingWeight, reads.pending, pendingWeight]
  rw [← same]
  rcases settle_lighter afterLightens with less | ⟨equal, bound⟩
  · exact .inl less
  · exact .inr ⟨equal, Nat.lt_of_le_of_lt bound reads.size_lt⟩

/-- No walk goes on for ever through nodes below which the nodes weigh less. -/
theorem acc_step {Node : ν → Prop} (closed : Closed expand Node)
    (lightens : ∀ node, Node node → Lightens expand weight node) {walk : PagedWalk κ ν ι}
    (within : walk.Within Node) : Acc (fun next walk => ∃ page, Step expand walk page next) walk := by
  induction weightIs : walk.pendingWeight weight using Nat.strong_induction_on generalizing walk with
  | _ total lighter =>
      induction sizeIs : walk.size using Nat.strong_induction_on generalizing walk with
      | _ count smaller =>
          constructor
          rintro next ⟨page, steps⟩
          have after := within.step closed steps
          rcases steps.lighter fun node member => lightens node (within node member) with
            less | ⟨equal, fewer⟩
          · exact lighter _ (weightIs ▸ less) after rfl
          · exact smaller _ (sizeIs ▸ fewer) after (equal.trans weightIs) rfl

end Weights

/-! ## Nothing is listed twice -/

section Distinct

variable {below : ν → ν → Prop} {Node : ν → Prop} {outerRequests : List κ}

variable (below) in
/-- Neither node is below the other. -/
def Apart (node other : ν) : Prop :=
  ¬ below node other ∧ ¬ below other node

theorem Apart.symm {node other : ν} (apart : Apart below node other) : Apart below other node :=
  ⟨apart.2, apart.1⟩

variable (expand below Node outerRequests) in
/-- The nodes of a set form a forest, and every listing has requests of its own. -/
structure Forest : Prop where
  closed : Closed expand Node
  refl : ∀ node, below node node
  trans : ∀ {lower node upper : ν}, below lower node → below node upper → below lower upper
  chain : ∀ {lower node other : ν}, below lower node → below lower other →
    below node other ∨ below other node
  under : ∀ node, Node node → ∀ child ∈ (expand node).flatMap Page.nodes,
    below child node ∧ ¬ below node child
  apart : ∀ node, Node node → ((expand node).flatMap Page.nodes).Pairwise (Apart below)
  nodup : ∀ node, Node node → ((expand node).map Page.request).Nodup
  disjoint : ∀ node other, Node node → Node other → node ≠ other →
    ∀ request ∈ (expand node).map Page.request, request ∉ (expand other).map Page.request
  notOuter : ∀ node, Node node →
    ∀ request ∈ (expand node).map Page.request, request ∉ outerRequests

variable (expand below Node outerRequests) in
/-- The nodes still to be listed are apart and not above one that has been listed, and no
request is made twice. -/
structure Distinct (visited : List ν) (sent : List κ) (walk : PagedWalk κ ν ι) : Prop where
  within : walk.Within Node
  known : ∀ node ∈ visited, Node node
  apart : walk.pending.Pairwise (Apart below)
  behind : ∀ node ∈ walk.pending, ∀ earlier ∈ visited, ¬ below earlier node
  nodup : (sent ++ walk.pages.map Page.request).Nodup
  origin : ∀ request ∈ sent ++ walk.pages.map Page.request,
    request ∈ outerRequests ∨ ∃ node ∈ visited, request ∈ (expand node).map Page.request

theorem Distinct.reads {visited : List ν} {sent : List κ} {walk after : PagedWalk κ ν ι}
    {page : Option (Page κ ν ι)}
    (distinct : Distinct expand below Node outerRequests visited sent walk)
    (reads : Reads walk page after) :
    Distinct expand below Node outerRequests visited (sent ++ page.toList.map Page.request)
      after := by
  have requests : sent ++ walk.pages.map Page.request =
      sent ++ page.toList.map Page.request ++ after.pages.map Page.request := by
    rw [reads.pages, List.map_append, List.append_assoc]
  exact ⟨fun node member => distinct.within node (reads.pending ▸ member), distinct.known,
    reads.pending ▸ distinct.apart, reads.pending ▸ distinct.behind, requests ▸ distinct.nodup,
    requests ▸ distinct.origin⟩

theorem Distinct.settle (forest : Forest expand below Node outerRequests) {visited : List ν}
    {sent : List κ} {walk : PagedWalk κ ν ι}
    (distinct : Distinct expand below Node outerRequests visited sent walk) :
    ∃ later, Distinct expand below Node outerRequests later sent (walk.settle expand) := by
  rcases walk.settle_cases with keeps | ⟨front, node, selects, settled⟩
  · refine ⟨visited, distinct.within.settle forest.closed, distinct.known, ?_, ?_, ?_, ?_⟩
    · exact keeps.pending ▸ distinct.apart
    · exact keeps.pending ▸ distinct.behind
    · exact keeps.pages ▸ distinct.nodup
    · exact keeps.pages ▸ distinct.origin
  · have isPending : node ∈ walk.pending := selects.pending.mem_iff.mpr List.mem_cons_self
    have isNode := distinct.within node isPending
    have others : ∀ other ∈ front ++ walk.outer.flatMap Page.nodes, other ∈ walk.pending :=
      fun other member => selects.pending.mem_iff.mpr (List.mem_cons_of_mem node member)
    have unrelated := List.pairwise_cons.mp
      ((selects.pending.pairwise_iff Apart.symm).mp distinct.apart)
    have notVisited : node ∉ visited := fun member =>
      distinct.behind node isPending node member (forest.refl node)
    have requests : sent ++ walk.pages.map Page.request =
        sent ++ walk.outer.map Page.request := by
      rw [selects.pages]
    have nodup := requests ▸ distinct.nodup
    have origin := requests ▸ distinct.origin
    have within := distinct.within.settle forest.closed
    rw [settled] at within ⊢
    refine ⟨node :: visited, within, ?_, ?_, ?_, ?_, ?_⟩
    · exact List.forall_mem_cons.mpr ⟨isNode, distinct.known⟩
    · rw [(pending_selected _ _ _).pairwise_iff Apart.symm, List.pairwise_append]
      refine ⟨forest.apart node isNode, unrelated.2, ?_⟩
      intro child isChild other isOther
      have under := (forest.under node isNode child isChild).1
      have beside := unrelated.1 other isOther
      constructor
      · intro childBelow
        exact (forest.chain under childBelow).elim beside.1 beside.2
      · intro otherBelow
        exact beside.2 (forest.trans otherBelow under)
    · intro other isPendingOther earlier isEarlier
      rw [(pending_selected _ _ _).mem_iff, List.mem_append] at isPendingOther
      rcases List.mem_cons.mp isEarlier with rfl | isEarlier
      · rcases isPendingOther with isChild | beside
        · exact (forest.under earlier isNode other isChild).2
        · exact (unrelated.1 other beside).1
      · rcases isPendingOther with isChild | beside
        · intro below
          exact distinct.behind node isPending earlier isEarlier
            (forest.trans below (forest.under node isNode other isChild).1)
        · exact distinct.behind other (others other beside) earlier isEarlier
    · rw [PagedWalk.pages, currentPages, List.map_append,
        (List.perm_append_comm_assoc _ _ _).nodup_iff, List.nodup_append]
      refine ⟨forest.nodup node isNode, nodup, ?_⟩
      rintro request isNew _ isOld rfl
      rcases origin request isOld with isOuter | ⟨earlier, isEarlier, isItsOwn⟩
      · exact forest.notOuter node isNode request isNew isOuter
      · exact forest.disjoint node earlier isNode (distinct.known earlier isEarlier)
          (fun same => notVisited (same ▸ isEarlier)) request isNew isItsOwn
    · intro request member
      rw [PagedWalk.pages, currentPages, List.map_append,
        (List.perm_append_comm_assoc _ _ _).mem_iff, List.mem_append] at member
      rcases member with isNew | isOld
      · exact .inr ⟨node, List.mem_cons_self, isNew⟩
      · rcases origin request isOld with isOuter | ⟨earlier, isEarlier, isItsOwn⟩
        · exact .inl isOuter
        · exact .inr ⟨earlier, List.mem_cons_of_mem node isEarlier, isItsOwn⟩

theorem Distinct.step (forest : Forest expand below Node outerRequests) {visited : List ν}
    {sent : List κ} {walk next : PagedWalk κ ν ι} {page : Option (Page κ ν ι)}
    (distinct : Distinct expand below Node outerRequests visited sent walk)
    (steps : Step expand walk page next) :
    ∃ later, Distinct expand below Node outerRequests later
      (sent ++ page.toList.map Page.request) next := by
  rcases steps with ⟨after, reads, rfl⟩
  exact (distinct.reads reads).settle forest

/-- The page that is read next has not been asked for before. -/
theorem Distinct.fresh {visited : List ν} {sent : List κ} {walk next : PagedWalk κ ν ι}
    {page : Page κ ν ι} (distinct : Distinct expand below Node outerRequests visited sent walk)
    (steps : Step expand walk (some page) next) : page.request ∉ sent := by
  rcases steps with ⟨after, reads, -⟩
  have nodup := distinct.nodup
  rw [reads.pages] at nodup
  intro again
  exact (List.nodup_append.mp nodup).2.2 _ again _ List.mem_cons_self rfl

end Distinct

end PagedWalk

end Httpfs.Transition
