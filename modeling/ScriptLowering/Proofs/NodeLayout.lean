import Mathlib.Data.List.Chain
import ScriptLowering.Proofs.TokenStream

/-! # Nodes laid out as a tree over the tokens

What makes the parser's arena a syntax tree, said node by node and read through the spans of the
output so far. A node is laid out (`NodeLaid`) when its children come before it, its span runs
forward from the start of a token to the end of the same or a later one and holds its children's
spans, which follow one another, and when, childless and not of a container kind, it stands for a
single token. The
parser keeps every node of its output so (`Output.Laid`): a node is pushed once all its children
are read, and a node being read keeps its span and children so far in the same shape
(`Partial`), from its first token to where the reading stands.

Which nodes hang below which is said by walks: the walk down from a node visits every node below
it once for every path that reaches it (`SyntaxArena.visitAt`). The nodes a reading function adds
to its output hang below the nodes it hands back (`Forest`): walking down from those visits every
added node exactly once. At the end the walk from the root visits every node of the arena exactly
once, which is to say that each is reached along exactly one path.
-/

namespace ScriptLowering

theorem Token.start_le_stop (token : Token) : token.start ≤ token.stop := Nat.le_add_right _ _

namespace Span

/-- The first span runs forward and lies inside the second. -/
def Within : Span → Span → Prop
  | .range start stop, .range outerStart outerStop => outerStart ≤ start ∧ start ≤ stop ∧ stop ≤ outerStop
  | _, _ => False

/-- The second span starts and ends no earlier than the first. -/
def Precedes : Span → Span → Prop
  | .range start stop, .range laterStart laterStop => start ≤ laterStart ∧ stop ≤ laterStop
  | _, _ => False

/-- The span runs forward between two offsets. -/
def Between (lo hi : Nat) : Span → Prop
  | .range start stop => lo ≤ start ∧ start ≤ stop ∧ stop ≤ hi
  | .synthetic => False

/-- The span runs from the start of one of the tokens to the end of the same or a later one, one
that starts no earlier. -/
def FromTokens (all : List Token) (span : Span) : Prop :=
  ∃ first ∈ all, ∃ last ∈ all, first.start ≤ last.start ∧ span = .range first.start last.stop

section Relations

variable {span inner outer other : Span} {lo hi : Nat}

theorem Between.mono {lo' hi' : Nat} (between : span.Between lo hi) (lower : lo' ≤ lo) (higher : hi ≤ hi') :
    span.Between lo' hi' := by
  cases span with
  | range start stop =>
    obtain ⟨_, _, _⟩ := between
    exact ⟨by omega, by omega, by omega⟩
  | synthetic => exact between

theorem Between.cover (first : span.Between lo hi) (second : other.Between lo hi) :
    (span.cover other).Between lo hi := by
  cases span with
  | range start stop =>
    cases other with
    | range otherStart otherStop =>
      obtain ⟨_, _, _⟩ := first
      obtain ⟨_, _, _⟩ := second
      simp only [Span.cover, Between]
      omega
    | synthetic => exact first
  | synthetic => exact absurd first id

/-- A span between two offsets lies inside itself. -/
theorem Between.within_self (between : span.Between lo hi) : span.Within span := by
  cases span with
  | range start stop =>
    obtain ⟨_, _, _⟩ := between
    exact ⟨Nat.le_refl _, by omega, Nat.le_refl _⟩
  | synthetic => exact between

theorem Within.cover_left (within : inner.Within outer) (other : Span) :
    inner.Within (outer.cover other) := by
  cases inner with
  | range start stop =>
    cases outer with
    | range outerStart outerStop =>
      obtain ⟨_, _, _⟩ := within
      cases other with
      | range otherStart otherStop =>
        simp only [Span.cover, Within]
        omega
      | synthetic => exact ⟨by omega, by omega, by omega⟩
    | synthetic => exact absurd within id
  | synthetic => exact within

theorem Within.cover_right (within : inner.Within outer) (other : Span) :
    inner.Within (other.cover outer) := by
  cases inner with
  | range start stop =>
    cases outer with
    | range outerStart outerStop =>
      obtain ⟨_, _, _⟩ := within
      cases other with
      | range otherStart otherStop =>
        simp only [Span.cover, Within]
        omega
      | synthetic => exact ⟨by omega, by omega, by omega⟩
    | synthetic => exact absurd within id
  | synthetic => exact within

theorem Within.between (within : inner.Within outer) (between : outer.Between lo hi) :
    inner.Between lo hi := by
  cases inner with
  | range start stop =>
    cases outer with
    | range outerStart outerStop =>
      obtain ⟨_, _, _⟩ := within
      obtain ⟨_, _, _⟩ := between
      exact ⟨by omega, by omega, by omega⟩
    | synthetic => exact absurd within id
  | synthetic => exact within

/-- A span that ends by an offset precedes one that starts from it. -/
theorem Between.precedes {mid : Nat} (earlier : span.Between lo mid) (later : other.Between mid hi) :
    span.Precedes other := by
  cases span with
  | range start stop =>
    cases other with
    | range otherStart otherStop =>
      obtain ⟨_, _, _⟩ := earlier
      obtain ⟨_, _, _⟩ := later
      exact ⟨by omega, by omega⟩
    | synthetic => exact later
  | synthetic => exact earlier

/-- A span inside one that ends by an offset precedes a span that starts from it. -/
theorem Within.precedes {mid : Nat} (within : inner.Within outer) (earlier : outer.Between lo mid)
    (later : other.Between mid hi) : inner.Precedes other :=
  (within.between earlier).precedes later

theorem Between.le (between : span.Between lo hi) : lo ≤ hi := by
  cases span with
  | range start stop =>
    obtain ⟨_, _, _⟩ := between
    omega
  | synthetic => exact absurd between id

theorem Within.precedes_self (within : inner.Within outer) : inner.Precedes inner := by
  cases inner with
  | range start stop =>
    cases outer with
    | range outerStart outerStop => exact ⟨Nat.le_refl _, Nat.le_refl _⟩
    | synthetic => exact absurd within id
  | synthetic => exact absurd within id

theorem FromTokens.cover {all : List Token} (first : span.FromTokens all) (second : other.FromTokens all) :
    (span.cover other).FromTokens all := by
  obtain ⟨start, startIn, stop, stopIn, forward, rfl⟩ := first
  obtain ⟨otherStart, otherStartIn, otherStop, otherStopIn, otherForward, rfl⟩ := second
  rw [Span.cover_range]
  -- the covering span starts where one of the two starts and ends where one of the two ends
  refine ⟨if start.start ≤ otherStart.start then start else otherStart, by split <;> assumption,
    if stop.stop ≤ otherStop.stop then otherStop else stop, by split <;> assumption, ?_, ?_⟩
  · split <;> split <;> omega
  · split <;> split <;> simp only [Span.range.injEq] <;> omega

theorem fromTokens_token {all : List Token} {token : Token} (member : token ∈ all) :
    token.span.FromTokens all :=
  ⟨token, member, token, member, Nat.le_refl _, rfl⟩

end Relations

end Span

/-- The kinds of nodes that may be left empty and still span more than one token: the file, a
variable declaration cut after its `=`, and bracketed lists. A function left empty is its keyword
alone. -/
def SyntaxKind.isContainer : SyntaxKind → Bool
  | .file | .variable | .parameterList | .block | .argumentList | .object => true
  | _ => false

namespace SyntaxArena

/-- The nodes met walking down from `index`, the node first and then the walks below its children
in order, following child indices for at most `fuel` levels: a node is met once for every path
from `index` that reaches it. -/
def visitAt (arena : SyntaxArena) : (fuel : Nat) → (index : Nat) → Option (List Nat)
  | 0, _ => none
  | fuel + 1, index => do
    let node ← arena.nodes[index]?
    let walks ← node.children.mapM (arena.visitAt fuel)
    pure (index :: walks.flatten)

/-- The nodes met walking down from the root, with as many levels as the arena has nodes. -/
def walk? (arena : SyntaxArena) : Option (List Nat) := arena.visitAt arena.nodes.size arena.root

/-- One level of a walk: the node at the index, then the walks below its children. -/
theorem visitAt_succ_eq_some {arena : SyntaxArena} {fuel index : Nat} {walk : List Nat} :
    arena.visitAt (fuel + 1) index = some walk ↔
      ∃ node, arena.nodes[index]? = some node ∧ ∃ walks,
        node.children.mapM (arena.visitAt fuel) = some walks ∧ index :: walks.flatten = walk := by
  simp only [visitAt]
  cases arena.nodes[index]? with
  | none => simp
  | some node => simp [Option.bind_eq_some_iff]

/-- An arena that keeps every node of another walks, with at least as much fuel, every index the
other walks, the same way. -/
theorem visitAt_of_keeps {arena other : SyntaxArena}
    (keeps : ∀ (index : Nat) node, arena.nodes[index]? = some node → other.nodes[index]? = some node)
    {fuel more index : Nat} {walk : List Nat} (le : fuel ≤ more)
    (visits : arena.visitAt fuel index = some walk) : other.visitAt more index = some walk := by
  induction fuel generalizing more index walk with
  | zero => simp [visitAt] at visits
  | succ fuel ih =>
    obtain ⟨less, rfl⟩ : ∃ less, more = less + 1 := ⟨more - 1, by omega⟩
    rw [visitAt_succ_eq_some] at visits ⊢
    obtain ⟨node, found, walks, childWalks, rfl⟩ := visits
    refine ⟨node, keeps index node found, walks, ?_, rfl⟩
    rw [mapM_eq_some_iff_forall₂] at childWalks ⊢
    exact childWalks.imp fun _ _ => ih (by omega)

/-- Trees each dumped in as many lines as their walks are long are dumped together in as many
lines as the walks have nodes together. -/
theorem dumpForest_length {source : List Char} {depth : Nat} {trees : List SyntaxTree}
    {walks : List (List Nat)}
    (related : List.Forall₂ (fun tree walk => ∀ depth, (SyntaxTree.dumpLines source depth tree).length = walk.length)
      trees walks) :
    (SyntaxTree.dumpForest source depth trees).length = walks.flatten.length := by
  induction related with
  | nil => simp [SyntaxTree.dumpForest]
  | cons first _ ih => rw [SyntaxTree.dumpForest, List.length_append, first depth, ih]; simp

/-- Where a walk goes through, the tree unfolds too, and its dump has a line for every node the
walk meets. -/
theorem unfoldAt_of_visitAt {arena : SyntaxArena} (source : List Char) {fuel index : Nat} {walk : List Nat}
    (visits : arena.visitAt fuel index = some walk) :
    ∃ tree, arena.unfoldAt fuel index = some tree ∧
      ∀ depth, (SyntaxTree.dumpLines source depth tree).length = walk.length := by
  induction fuel generalizing index walk with
  | zero => simp [visitAt] at visits
  | succ fuel ih =>
    obtain ⟨node, found, walks, childWalks, rfl⟩ := visitAt_succ_eq_some.mp visits
    rw [mapM_eq_some_iff_forall₂] at childWalks
    -- unfold every child along its walk
    have trees : ∀ {children : List Nat} {walks : List (List Nat)},
        List.Forall₂ (fun child walk => arena.visitAt fuel child = some walk) children walks →
        ∃ trees, List.Forall₂ (fun child tree => arena.unfoldAt fuel child = some tree) children trees ∧
          List.Forall₂ (fun tree walk => ∀ depth, (SyntaxTree.dumpLines source depth tree).length = walk.length)
            trees walks := by
      intro children walks related
      induction related with
      | nil => exact ⟨[], .nil, .nil⟩
      | cons first _ restTrees =>
        obtain ⟨tree, unfolds, lines⟩ := ih first
        obtain ⟨trees, unfold, sizes⟩ := restTrees
        exact ⟨tree :: trees, .cons unfolds unfold, .cons lines sizes⟩
    obtain ⟨subtrees, unfold, sizes⟩ := trees childWalks
    refine ⟨.node node.kind node.span subtrees,
      unfoldAt_succ_eq_some.mpr ⟨node, found, subtrees, mapM_eq_some_iff_forall₂.mpr unfold, rfl⟩, ?_⟩
    intro depth
    cases subtrees with
    | nil =>
      obtain rfl := List.forall₂_nil_left_iff.mp sizes
      simp [SyntaxTree.dumpLines]
    | cons first more =>
      rw [SyntaxTree.dumpLines, List.length_cons, dumpForest_length sizes, List.length_cons]

end SyntaxArena

namespace Syntax

/-! ## Tokens in the order of the text -/

/-- Where the unread tokens start: at the first of them, or at the end of the text when none is
left. -/
def startOf (eof : Nat) : List Token → Nat
  | [] => eof
  | token :: _ => token.start

/-- Tokens in the order of the text: each ends no later than the next starts, and all end no
later than the end of the text. -/
def InOrder (eof : Nat) (tokens : List Token) : Prop :=
  tokens.Pairwise (fun earlier later => earlier.stop ≤ later.start) ∧ ∀ token ∈ tokens, token.stop ≤ eof

section InOrder

variable {eof : Nat} {tokens rest : List Token}

theorem InOrder.suffix (inOrder : InOrder eof tokens) (suffix : rest <:+ tokens) : InOrder eof rest :=
  ⟨inOrder.1.sublist suffix.sublist, fun token member => inOrder.2 token (suffix.subset member)⟩

theorem InOrder.tail {token : Token} (inOrder : InOrder eof (token :: tokens)) : InOrder eof tokens :=
  inOrder.suffix (List.suffix_cons token tokens)

/-- A token read ends no later than the unread tokens start. -/
theorem InOrder.stop_le_of_mem {read : List Token} (inOrder : InOrder eof (read ++ rest)) {token : Token}
    (member : token ∈ read) : token.stop ≤ startOf eof rest := by
  cases rest with
  | nil => exact inOrder.2 token (List.mem_append_left _ member)
  | cons next more =>
    exact (List.pairwise_append.mp inOrder.1).2.2 token member next List.mem_cons_self

/-- A token ends no later than the tokens after it start. -/
theorem InOrder.stop_le {token : Token} (inOrder : InOrder eof (token :: tokens)) :
    token.stop ≤ startOf eof tokens :=
  InOrder.stop_le_of_mem (show InOrder eof ([token] ++ tokens) from inOrder) List.mem_cons_self

/-- Reading on never moves back. -/
theorem InOrder.startOf_le (inOrder : InOrder eof tokens) (suffix : rest <:+ tokens) :
    startOf eof tokens ≤ startOf eof rest := by
  obtain ⟨read, rfl⟩ := suffix
  cases read with
  | nil => exact Nat.le_refl _
  | cons token more =>
    have stop := inOrder.stop_le_of_mem (show token ∈ token :: more from List.mem_cons_self)
    exact Nat.le_trans (Token.start_le_stop token) stop

/-- The token read first lies between where the reading starts and where it goes on. -/
theorem InOrder.span_between {token : Token} (inOrder : InOrder eof (token :: tokens)) :
    token.span.Between (startOf eof (token :: tokens)) (startOf eof tokens) :=
  ⟨Nat.le_refl _, Token.start_le_stop token, inOrder.stop_le⟩

end InOrder

/-! ## Spans and walks of the nodes written -/

/-- The span of the node at an index, synthetic where there is none. -/
def spanAt (nodes : Array SyntaxNode) (index : Nat) : Span := Output.spanOf { nodes } index

@[simp] theorem spanOf_eq_spanAt (out : Output) (index : Nat) : out.spanOf index = spanAt out.nodes index := rfl

/-- The walk down from the node at `index`, with a level for it and for each node before it. -/
def Visits (nodes : Array SyntaxNode) (index : Nat) (walk : List Nat) : Prop :=
  (SyntaxArena.mk nodes index).visitAt (index + 1) index = some walk

/-- The walks down from `roots` together meet exactly the nodes `visited`, each as often as it
occurs there. -/
def Forest (nodes : Array SyntaxNode) (roots visited : List Nat) : Prop :=
  ∃ walks, List.Forall₂ (Visits nodes) roots walks ∧ walks.flatten.Perm visited

/-- The indices of the nodes from `first` on. -/
def indicesFrom (nodes : Array SyntaxNode) (first : Nat) : List Nat :=
  List.range' first (nodes.size - first)

section Walks

variable {nodes : Array SyntaxNode} {before after : Output}

theorem Output.Grows.size_le_size (grows : Output.Grows before after) : before.nodes.size ≤ after.nodes.size := by
  simpa using grows.nodes.length_le

theorem spanAt_grow (grows : Output.Grows before after) {index : Nat} (present : index < before.nodes.size) :
    spanAt after.nodes index = spanAt before.nodes index := by
  have found : before.nodes[index]? = some before.nodes[index] := Array.getElem?_eq_getElem present
  simp only [spanAt, Output.spanOf, found, grows.keeps index _ found]

theorem spanAt_push_self (out : Output) (kind : SyntaxKind) (span : Span) (children : List Nat) :
    spanAt (out.push kind span children).1.nodes (out.push kind span children).2 = span := by
  simp [spanAt, Output.spanOf, Output.push]

theorem spanAt_leaf_self (out : Output) (kind : SyntaxKind) (token : Token) :
    spanAt (out.leaf kind token).1.nodes (out.leaf kind token).2 = token.span :=
  spanAt_push_self out kind token.span []

theorem Visits.lt {index : Nat} {walk : List Nat} (visits : Visits nodes index walk) : index < nodes.size := by
  obtain ⟨_, found, -⟩ := SyntaxArena.visitAt_succ_eq_some.mp visits
  exact (Array.getElem?_eq_some_iff.mp found).1

theorem Visits.grow {index : Nat} {walk : List Nat} (visits : Visits before.nodes index walk)
    (grows : Output.Grows before after) : Visits after.nodes index walk :=
  SyntaxArena.visitAt_of_keeps grows.keeps (Nat.le_refl _) visits

theorem forest_nil : Forest nodes [] [] := ⟨[], .nil, List.Perm.refl _⟩

theorem Forest.lt {roots visited : List Nat} (forest : Forest nodes roots visited) :
    ∀ root ∈ roots, root < nodes.size := by
  obtain ⟨walks, related, -⟩ := forest
  intro root member
  induction related with
  | nil => exact absurd member List.not_mem_nil
  | cons first _ ih =>
    rcases List.mem_cons.mp member with rfl | later
    · exact first.lt
    · exact ih later

theorem Forest.grow {roots visited : List Nat} (forest : Forest before.nodes roots visited)
    (grows : Output.Grows before after) : Forest after.nodes roots visited := by
  obtain ⟨walks, related, perm⟩ := forest
  exact ⟨walks, related.imp fun _ _ visits => visits.grow grows, perm⟩

theorem Forest.append {roots visited more moreVisited : List Nat} (forest : Forest nodes roots visited)
    (other : Forest nodes more moreVisited) : Forest nodes (roots ++ more) (visited ++ moreVisited) := by
  obtain ⟨walks, related, perm⟩ := forest
  obtain ⟨moreWalks, moreRelated, morePerm⟩ := other
  exact ⟨walks ++ moreWalks, List.rel_append related moreRelated, by rw [List.flatten_append]; exact perm.append morePerm⟩

/-- A node pushed over children is the one root of the walks below them and itself. -/
theorem forest_push {out : Output} {children visited : List Nat} (forest : Forest out.nodes children visited)
    (kind : SyntaxKind) (span : Span) :
    Forest (out.push kind span children).1.nodes [(out.push kind span children).2] (visited ++ [out.nodes.size]) := by
  obtain ⟨walks, related, perm⟩ := forest
  have grows := Output.grows_push out kind span children
  -- every child comes before the new node, so one level fewer than it has is enough for them
  have below : List.Forall₂ (fun child walk =>
      (SyntaxArena.mk (out.push kind span children).1.nodes out.nodes.size).visitAt out.nodes.size child = some walk)
      children walks :=
    related.imp fun _ _ visits => SyntaxArena.visitAt_of_keeps grows.keeps (Visits.lt visits) visits
  refine ⟨[out.nodes.size :: walks.flatten], .cons ?_ .nil, ?_⟩
  · exact SyntaxArena.visitAt_succ_eq_some.mpr ⟨⟨kind, span, children⟩, by simp [Output.push], walks,
      mapM_eq_some_iff_forall₂.mpr below, rfl⟩
  · simpa using (perm.cons out.nodes.size).trans (List.perm_append_singleton _ _).symm

theorem indicesFrom_self : indicesFrom nodes nodes.size = [] := by simp [indicesFrom]

theorem indicesFrom_append {mid : Array SyntaxNode} {first : Nat} (started : first ≤ mid.size)
    (grown : mid.size ≤ nodes.size) : indicesFrom mid first ++ indicesFrom nodes mid.size = indicesFrom nodes first := by
  unfold indicesFrom
  rw [show nodes.size - first = (mid.size - first) + (nodes.size - mid.size) by omega, ← List.range'_append_1,
    show first + (mid.size - first) = mid.size by omega]

theorem indicesFrom_push {first : Nat} (started : first ≤ nodes.size) (node : SyntaxNode) :
    indicesFrom (nodes.push node) first = indicesFrom nodes first ++ [nodes.size] := by
  have push : indicesFrom (nodes.push node) nodes.size = [nodes.size] := by
    simp [indicesFrom]
  rw [← push, indicesFrom_append started (by simp)]

end Walks

/-! ## Nodes laid out over the tokens -/

/-- A node laid out over the tokens `all`: its children come before it, its span runs forward
from the start of a token to the end of the same or a later one and holds the spans of its
children, which follow one another, and a childless node is a container or stands for a single
token. -/
structure NodeLaid (all : List Token) (nodes : Array SyntaxNode) (index : Nat) (node : SyntaxNode) : Prop where
  descend : ∀ child ∈ node.children, child < index
  fromTokens : node.span.FromTokens all
  within : ∀ child ∈ node.children, (spanAt nodes child).Within node.span
  chain : (node.children.map (spanAt nodes)).IsChain Span.Precedes
  leaf : node.children = [] → node.kind.isContainer ∨ ∃ token ∈ all, node.span = token.span

/-- Every node of the arena is laid out over the tokens. -/
def Laid (all : List Token) (nodes : Array SyntaxNode) : Prop :=
  ∀ index node, nodes[index]? = some node → NodeLaid all nodes index node

/-- A node read between the offsets `lo` and `hi`: its span runs forward between them from the
start of a token to the end of the same or a later one, and the walk down from it meets exactly the
nodes from `first` on. -/
structure Placed (all : List Token) (nodes : Array SyntaxNode) (lo hi node first : Nat) : Prop where
  between : (spanAt nodes node).Between lo hi
  fromTokens : (spanAt nodes node).FromTokens all
  started : first ≤ nodes.size
  forest : Forest nodes [node] (indicesFrom nodes first)

/-- A node being read from the offset `lo`, read up to `hi`: its span so far runs forward between
them from the start of a token to the end of the same or a later one and holds the spans of its
children so far, which follow one another, and the walks down from those children meet exactly the
nodes from `first` on. -/
structure Partial (all : List Token) (nodes : Array SyntaxNode) (lo hi first : Nat) (span : Span)
    (children : List Nat) : Prop where
  between : span.Between lo hi
  fromTokens : span.FromTokens all
  within : ∀ child ∈ children, (spanAt nodes child).Within span
  chain : (children.map (spanAt nodes)).IsChain Span.Precedes
  started : first ≤ nodes.size
  forest : Forest nodes children (indicesFrom nodes first)

/-- The statements of a file read up to the offset `hi`: each spans forward between the start of
the text and `hi`, their spans follow one another, and the walks down from them meet exactly every
node. -/
structure Listed (nodes : Array SyntaxNode) (hi : Nat) (statements : List Nat) : Prop where
  between : ∀ statement ∈ statements, (spanAt nodes statement).Between 0 hi
  chain : (statements.map (spanAt nodes)).IsChain Span.Precedes
  forest : Forest nodes statements (indicesFrom nodes 0)

section Layout

variable {all : List Token} {nodes : Array SyntaxNode} {before mid after out : Output} {lo hi hi' first : Nat}
  {span : Span} {children : List Nat}

/-- Spans that follow one another and end by `hi` still do with one after them that starts from
`hi`. -/
theorem isChain_append_precedes {spans : List Span} {next : Span}
    (chain : spans.IsChain Span.Precedes) (ended : ∀ span ∈ spans, ∃ lo, span.Between lo hi)
    (later : next.Between hi hi') : (spans ++ [next]).IsChain Span.Precedes := by
  refine chain.append (.singleton next) fun last isLast first isFirst => ?_
  simp only [List.head?_cons, Option.mem_def, Option.some.injEq] at isFirst
  subst isFirst
  obtain ⟨lo, between⟩ := ended last (List.mem_of_mem_getLast? isLast)
  exact between.precedes later

theorem NodeLaid.grow {index : Nat} {node : SyntaxNode} (laid : NodeLaid all before.nodes index node)
    (present : index ≤ before.nodes.size) (grows : Output.Grows before after) :
    NodeLaid all after.nodes index node := by
  have same : ∀ child ∈ node.children, spanAt after.nodes child = spanAt before.nodes child :=
    fun child member => spanAt_grow grows (Nat.lt_of_lt_of_le (laid.descend child member) present)
  refine ⟨laid.descend, laid.fromTokens, fun child member => ?_, ?_, laid.leaf⟩
  · rw [same child member]
    exact laid.within child member
  · rw [List.map_congr_left same]
    exact laid.chain

theorem laid_empty : Laid all ({} : Output).nodes := by
  intro index node found
  simp at found

/-- A node laid out over the nodes before it keeps the arena laid out when it is pushed. -/
theorem laid_push (laid : Laid all out.nodes) {kind : SyntaxKind} {span : Span} {children : List Nat}
    (node : NodeLaid all out.nodes out.nodes.size ⟨kind, span, children⟩) :
    Laid all (out.push kind span children).1.nodes := by
  have grows := Output.grows_push out kind span children
  intro index other found
  simp only [Output.push, Array.getElem?_push] at found
  split at found
  · rename_i pushed
    subst pushed
    obtain rfl := Option.some.inj found
    exact node.grow (Nat.le_refl _) grows
  · exact (laid index other found).grow (Nat.le_of_lt (Array.getElem?_eq_some_iff.mp found).1) grows

theorem Partial.raise (part : Partial all nodes lo hi first span children) (higher : hi ≤ hi') :
    Partial all nodes lo hi' first span children :=
  { part with between := part.between.mono (Nat.le_refl _) higher }

/-- A node is started at a token read between `lo` and `hi`, with no children yet. -/
theorem Partial.start {token : Token} (between : token.span.Between lo hi) (member : token ∈ all) :
    Partial all nodes lo hi nodes.size token.span [] :=
  ⟨between, Span.fromTokens_token member, fun _ member => absurd member List.not_mem_nil, .nil,
    Nat.le_refl _, by rw [indicesFrom_self]; exact forest_nil⟩

/-- A node is started at a node read before it, its first child. -/
theorem Partial.single {node : Nat} (placed : Placed all nodes lo hi node first) :
    Partial all nodes lo hi first (spanAt nodes node) [node] :=
  ⟨placed.between, placed.fromTokens, fun child member => by
    obtain rfl := List.mem_singleton.mp member
    exact placed.between.within_self, .singleton _, placed.started, placed.forest⟩

/-- The span of a node being read covers a span read after it. -/
theorem Partial.cover (part : Partial all nodes lo hi first span children) {next : Span}
    (between : next.Between hi hi') (fromTokens : next.FromTokens all) :
    Partial all nodes lo hi' first (span.cover next) children :=
  { part with
    between := (part.between.mono (Nat.le_refl _) between.le).cover (between.mono part.between.le (Nat.le_refl _))
    fromTokens := part.fromTokens.cover fromTokens
    within := fun child member => (part.within child member).cover_left next }

/-- A node being read takes a node read after it as its next child. -/
theorem Partial.add (part : Partial all mid.nodes lo hi first span children) (grows : Output.Grows mid after)
    {child : Nat} (placed : Placed all after.nodes hi hi' child mid.nodes.size) {next : Span}
    (spanned : spanAt after.nodes child = next) :
    Partial all after.nodes lo hi' first (span.cover next) (children ++ [child]) := by
  have present := part.forest.lt
  have same : ∀ child ∈ children, spanAt after.nodes child = spanAt mid.nodes child :=
    fun child member => spanAt_grow grows (present child member)
  have covered := part.cover (spanned ▸ placed.between) (spanned ▸ placed.fromTokens)
  refine ⟨covered.between, covered.fromTokens, fun other member => ?_, ?_,
    Nat.le_trans part.started grows.size_le_size, ?_⟩
  · rcases List.mem_append.mp member with old | added
    · rw [same other old]
      exact covered.within other old
    · obtain rfl := List.mem_singleton.mp added
      rw [spanned]
      exact (spanned ▸ placed.between).within_self.cover_right span
  · rw [List.map_append, List.map_singleton, List.map_congr_left same, spanned]
    exact isChain_append_precedes part.chain
      (fun _ member => by
        obtain ⟨child, old, rfl⟩ := List.mem_map.mp member
        exact ⟨lo, (part.within child old).between part.between⟩)
      (spanned ▸ placed.between)
  · rw [← indicesFrom_append part.started grows.size_le_size]
    exact (part.forest.grow grows).append placed.forest

/-- A node being read takes as its next child a node read at the same place as the last one. -/
theorem Partial.addAgain {previous : Nat} (part : Partial all mid.nodes lo hi first span (children ++ [previous]))
    (grows : Output.Grows mid after) {child : Nat} (forest : Forest after.nodes [child] (indicesFrom after.nodes mid.nodes.size))
    (same : spanAt after.nodes child = spanAt mid.nodes previous) :
    Partial all after.nodes lo hi first span (children ++ [previous] ++ [child]) := by
  have present := part.forest.lt
  have kept : ∀ other ∈ children ++ [previous], spanAt after.nodes other = spanAt mid.nodes other :=
    fun other member => spanAt_grow grows (present other member)
  have previousWithin := part.within previous (List.mem_append_right _ List.mem_cons_self)
  refine ⟨part.between, part.fromTokens, fun other member => ?_, ?_,
    Nat.le_trans part.started grows.size_le_size, ?_⟩
  · rcases List.mem_append.mp member with old | added
    · rw [kept other old]
      exact part.within other old
    · obtain rfl := List.mem_singleton.mp added
      rw [same]
      exact previousWithin
  · rw [List.map_append, List.map_singleton, List.map_congr_left kept, same]
    refine part.chain.append (.singleton _) fun last isLast first isFirst => ?_
    simp only [List.map_append, List.map_singleton, List.getLast?_append, List.getLast?_singleton,
      Option.some_or, Option.mem_def, Option.some.injEq] at isLast
    simp only [List.head?_cons, Option.mem_def, Option.some.injEq] at isFirst
    subst isLast isFirst
    exact previousWithin.precedes_self
  · rw [← indicesFrom_append part.started grows.size_le_size]
    exact (part.forest.grow grows).append forest

/-- Pushing a node read in full keeps the arena laid out and places the node. -/
theorem Partial.push (part : Partial all out.nodes lo hi first span children) (laid : Laid all out.nodes)
    (kind : SyntaxKind) (leaf : children = [] → kind.isContainer ∨ ∃ token ∈ all, span = token.span) :
    Laid all (out.push kind span children).1.nodes ∧
      Placed all (out.push kind span children).1.nodes lo hi (out.push kind span children).2 first := by
  have node : NodeLaid all out.nodes out.nodes.size ⟨kind, span, children⟩ :=
    ⟨part.forest.lt, part.fromTokens, part.within, part.chain, leaf⟩
  refine ⟨laid_push laid node, ?_, ?_, ?_, ?_⟩
  · rw [spanAt_push_self]
    exact part.between
  · rw [spanAt_push_self]
    exact part.fromTokens
  · exact Nat.le_trans part.started (Output.grows_push out kind span children).size_le_size
  · have pushed := forest_push part.forest kind span
    simp only [Output.push] at pushed ⊢
    rw [indicesFrom_push part.started]
    exact pushed

/-- A leaf over a token read between `lo` and `hi` keeps the arena laid out and is placed there. -/
theorem laid_leaf (laid : Laid all out.nodes) {token : Token} (member : token ∈ all)
    (between : token.span.Between lo hi) (kind : SyntaxKind) :
    Laid all (out.leaf kind token).1.nodes ∧
      Placed all (out.leaf kind token).1.nodes lo hi (out.leaf kind token).2 out.nodes.size :=
  (Partial.start between member).push laid kind fun _ => .inr ⟨token, member, rfl⟩

theorem Placed.mono {node lo' : Nat} (placed : Placed all nodes lo hi node first) (lower : lo' ≤ lo)
    (higher : hi ≤ hi') : Placed all nodes lo' hi' node first :=
  { placed with between := placed.between.mono lower higher }

theorem listed_nil : Listed ({} : Output).nodes hi [] :=
  ⟨fun _ member => absurd member List.not_mem_nil, .nil, by simp [indicesFrom]; exact forest_nil⟩

theorem Listed.raise {statements : List Nat} (listed : Listed nodes hi statements) (higher : hi ≤ hi') :
    Listed nodes hi' statements :=
  { listed with between := fun statement member => (listed.between statement member).mono (Nat.le_refl _) higher }

/-- The statements read so far take a statement read after them. -/
theorem Listed.add {statements : List Nat} (listed : Listed mid.nodes hi statements) (grows : Output.Grows mid after)
    {statement : Nat} (placed : Placed all after.nodes hi hi' statement mid.nodes.size) :
    Listed after.nodes hi' (statements ++ [statement]) := by
  have same : ∀ other ∈ statements, spanAt after.nodes other = spanAt mid.nodes other :=
    fun other member => spanAt_grow grows (listed.forest.lt other member)
  refine ⟨fun other member => ?_, ?_, ?_⟩
  · rcases List.mem_append.mp member with old | added
    · rw [same other old]
      exact (listed.between other old).mono (Nat.le_refl _) placed.between.le
    · obtain rfl := List.mem_singleton.mp added
      exact placed.between.mono (Nat.zero_le _) (Nat.le_refl _)
  · rw [List.map_append, List.map_singleton, List.map_congr_left same]
    exact isChain_append_precedes listed.chain
      (fun _ member => by
        obtain ⟨other, old, rfl⟩ := List.mem_map.mp member
        exact ⟨0, listed.between other old⟩)
      placed.between
  · rw [← indicesFrom_append (Nat.zero_le _) grows.size_le_size]
    exact (listed.forest.grow grows).append placed.forest

end Layout

end Syntax

end ScriptLowering
