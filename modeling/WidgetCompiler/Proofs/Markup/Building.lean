import WidgetCompiler.Markup.Fragment
import WidgetCompiler.Proofs.Markup.Tokens

/-!
# Tree construction in the body

While nothing but the root, the body and plain blocks is open (`IsFrame`), few of the rules of tree
construction apply.  The state is then one of `within`: the nodes so far and the open elements.  The
start tag of a block puts a new element behind the content of the one opened last and opens it
(`take_startTag`), its end tag closes it (`take_endTag`), and characters go behind the content
(`take_chars`).

What a text adds to such a state is said for any of them and in front of any tag (`Builds`), so texts
can be put behind each other and into blocks.  A document that begins with the start tag of a block is
read as if its root, head and body had been there (`readText_first`).
-/

namespace WidgetCompiler.Markup

open Text

namespace Node

/-- The element with more content behind what it has; content has its last piece first. -/
def receive (content : List Content) (node : Node) : Node :=
  { node with content := content ++ node.content }

@[simp] theorem name_receive (content : List Content) (node : Node) :
    (node.receive content).name = node.name := rfl

theorem receive_comp (content behind : List Content) :
    receive behind ∘ receive content = receive (behind ++ content) := by
  funext node
  simp [receive]

end Node

/-! ## Nodes -/

section

variable {nodes more : List Node} {f : Node → Node} {id : Nat}

theorem modify_append (h : id < nodes.length) :
    (nodes ++ more).modify id f = nodes.modify id f ++ more := by
  induction nodes generalizing id with
  | nil => simp at h
  | cons node nodes ih =>
    cases id with
    | zero => rfl
    | succ id => simpa using ih (by simpa using h)

theorem modify_length (nodes : List Node) (node : Node) :
    (nodes ++ [node]).modify nodes.length f = nodes ++ [f node] := by
  induction nodes with
  | nil => rfl
  | cons first nodes ih => simpa using ih

end

namespace Construction

/-! ## What is open -/

/-- The blocks, each of which closes no other and is closed by its own end tag. -/
def blocks : List Text := ["div", "section", "article"]

/-- The names of what is open around and in the body. -/
def frameNames : List Text := "html" :: "body" :: blocks

/-- The element at the place is the root, the body or a block. -/
def IsFrame (nodes : List Node) (id : Nat) : Prop :=
  ∃ node, nodes[id]? = some node ∧ ∃ name ∈ frameNames, node.name = ⟨.html, name⟩

section

variable {nodes more : List Node} {id cur : Nat} {content : List Content}

theorem IsFrame.lt_length (h : IsFrame nodes id) : id < nodes.length := by
  obtain ⟨node, hnode, -⟩ := h
  exact (List.getElem?_eq_some_iff.1 hnode).1

theorem IsFrame.append (h : IsFrame nodes id) : IsFrame (nodes ++ more) id := by
  have hlength := h.lt_length
  obtain ⟨node, hnode, hname⟩ := h
  exact ⟨node, (List.getElem?_append_left hlength).trans hnode, hname⟩

theorem IsFrame.receive (h : IsFrame nodes id) :
    IsFrame (nodes.modify cur (Node.receive content)) id := by
  obtain ⟨node, hnode, hname⟩ := h
  rw [IsFrame, List.getElem?_modify, hnode]
  by_cases hcur : cur = id
  · exact ⟨node.receive content, by simp [hcur], hname⟩
  · exact ⟨node, by simp [hcur], hname⟩

theorem isFrame_new {name : Text} (hname : name ∈ blocks) (nodes : List Node)
    (attributes : List (Text × Text)) (content : List Content) :
    IsFrame (nodes ++ [⟨⟨.html, name⟩, attributes, content⟩]) nodes.length :=
  ⟨_, List.getElem?_concat_length, name,
    List.mem_cons_of_mem _ (List.mem_cons_of_mem _ hname), rfl⟩

end

/-! ## The states in the body -/

/-- The state in the body, with what is built so far and what is open in it; `allowed` says whether a
set of frames may still take the place of the body. -/
def within (nodes : List Node) (openElements : List Nat) (allowed : Bool) : Construction :=
  { nodes := nodes.toArray
    openElements := openElements
    mode := .inBody
    head := some 1
    framesetAllowed := allowed
    oldLayout := true }

section

variable {nodes : List Node} {id cur : Nat} {below ids : List Nat} {allowed : Bool} {name : Text}
  {attributes : List (Text × Text)}

theorem nameOf_within (ids : List Nat) (allowed : Bool) (h : IsFrame nodes id) :
    ∃ name ∈ frameNames, (within nodes ids allowed).nameOf id = ⟨.html, name⟩ := by
  obtain ⟨node, hnode, name, hmem, hname⟩ := h
  refine ⟨name, hmem, ?_⟩
  have harray : nodes.toArray[id]? = some node := by simpa using hnode
  rw [nameOf, within, Nodes.nameOf, harray]
  exact hname

/-- What is open belongs to no other vocabulary. -/
theorem isForeign_within (h : IsFrame nodes cur) (piece : Piece) :
    (within nodes (cur :: below) allowed).isForeign piece = false := by
  obtain ⟨name, -, hname⟩ := nameOf_within (cur :: below) allowed h
  have hcurrent : (within nodes (cur :: below) allowed).current? = some cur := rfl
  rw [isForeign, hcurrent]
  simp only [hname, if_true]

/-- A piece of which the rules of the body dispose. -/
theorem applyWithin_within (h : IsFrame nodes cur) {piece : Piece} {b : Construction}
    (hdone : inBody (within nodes (cur :: below) allowed) piece = done b) (n : Nat) :
    applyWithin (n + 1) (within nodes (cur :: below) allowed) piece = b := by
  have hmode : (within nodes (cur :: below) allowed).byMode .inBody piece = done b := hdone
  have hstate : (within nodes (cur :: below) allowed).mode = .inBody := rfl
  rw [applyWithin, isForeign_within h, hstate, hmode]
  rfl

theorem apply_within (h : IsFrame nodes cur) {piece : Piece} {b : Construction}
    (hdone : inBody (within nodes (cur :: below) allowed) piece = done b) :
    (within nodes (cur :: below) allowed).apply piece = b := applyWithin_within h hdone 39

/-- Nothing is in scope of which nothing is open. -/
theorem inScopeWhere_eq_false {b : Construction} {ends : ElementName → Bool} {p : Nat → Bool}
    (h : ∀ id ∈ b.openElements, p id = false) : b.inScopeWhere ends p = false := by
  rw [inScopeWhere]
  generalize b.openElements = ids at h
  induction ids with
  | nil => rfl
  | cons id ids ih =>
    rw [inScopeWhere.go, h id List.mem_cons_self, ih fun i hi => h i (List.mem_cons_of_mem _ hi)]
    simp

/-- No paragraph is open that a block would close. -/
theorem closeParagraphInScope_within (h : ∀ id ∈ ids, IsFrame nodes id) :
    (within nodes ids allowed).closeParagraphInScope = within nodes ids allowed := by
  have hno : ∀ name ∈ frameNames, ((⟨.html, name⟩ : ElementName) == ⟨.html, "p"⟩) = false := by decide
  refine if_neg ?_
  rw [inScope, inScopeWhere_eq_false]
  · exact Bool.false_ne_true
  · intro id hid
    obtain ⟨name, hmem, hname⟩ := nameOf_within ids allowed (h id hid)
    rw [isHtml, hname]
    exact hno name hmem

theorem bodyStart_of_mem_blocks (h : name ∈ blocks) (b : Construction) :
    b.bodyStart ⟨name, attributes, false⟩
      = b.closeParagraphInScope.insertTag ⟨name, attributes, false⟩ := by
  simp only [blocks, List.mem_cons, List.not_mem_nil, or_false] at h
  rcases h with rfl | rfl | rfl <;> rfl

theorem bodyEnd_of_mem_blocks (h : name ∈ blocks) (b : Construction) :
    b.bodyEnd ⟨name, attributes, false⟩ = done (if b.inScope endsScope name then
      (b.closeImplied impliedEnds).popUntilNamed name else b) := by
  simp only [blocks, List.mem_cons, List.not_mem_nil, or_false] at h
  rcases h with rfl | rfl | rfl <;> rfl

/-- The start tag of a block puts a new element behind the content, and opens it. -/
theorem take_startTag (attributes : List (Text × Text)) (allowed : Bool) (hname : name ∈ blocks)
    (h : ∀ id ∈ cur :: below, IsFrame nodes id) :
    (within nodes (cur :: below) allowed).take (.startTag ⟨name, attributes, false⟩)
      = within (nodes.modify cur (Node.receive [.child nodes.length])
          ++ [⟨⟨.html, name⟩, attributes, []⟩]) (nodes.length :: cur :: below) allowed := by
  have hcur := h cur List.mem_cons_self
  have htake : (within nodes (cur :: below) allowed).take (.startTag ⟨name, attributes, false⟩)
      = (within nodes (cur :: below) allowed).apply (.startTag ⟨name, attributes, false⟩) := rfl
  rw [htake]
  refine apply_within hcur (congrArg done ?_)
  have hinsert : (within nodes (cur :: below) allowed).insertTag ⟨name, attributes, false⟩
      = { within nodes (cur :: below) allowed with
          nodes := (nodes.toArray.push ⟨⟨.html, name⟩, attributes, []⟩).modify cur
            (Node.receive [.child nodes.length])
          openElements := nodes.length :: cur :: below } := rfl
  rw [bodyStart_of_mem_blocks hname, closeParagraphInScope_within h, hinsert, List.push_toArray,
    List.modify_toArray, modify_append hcur.lt_length]
  rfl

/-- The end tag of a block closes it. -/
theorem take_endTag (below : List Nat) (allowed : Bool) (hname : name ∈ blocks) {node : Node}
    (hnode : nodes[cur]? = some node) (hnamed : node.name = ⟨.html, name⟩) :
    (within nodes (cur :: below) allowed).take (.endTag ⟨name, [], false⟩)
      = within nodes below allowed := by
  have hframe : IsFrame nodes cur :=
    ⟨node, hnode, name, List.mem_cons_of_mem _ (List.mem_cons_of_mem _ hname), hnamed⟩
  have hcur : (within nodes (cur :: below) allowed).nameOf cur = ⟨.html, name⟩ := by
    have harray : nodes.toArray[cur]? = some node := by simpa using hnode
    rw [nameOf, within, Nodes.nameOf, harray]
    exact hnamed
  have himplied : ∀ name ∈ blocks, isOneOf impliedEnds ⟨.html, name⟩ = false := by decide
  have hscope : (within nodes (cur :: below) allowed).inScope endsScope name = true := by
    have hopen : (within nodes (cur :: below) allowed).openElements = cur :: below := rfl
    rw [inScope, inScopeWhere, hopen, inScopeWhere.go, isHtml, hcur, beq_self_eq_true, Bool.true_or]
  have hclose : (within nodes (cur :: below) allowed).closeImplied impliedEnds
      = within nodes (cur :: below) allowed := by
    have hopen : (within nodes (cur :: below) allowed).openElements = cur :: below := rfl
    rw [closeImplied, hopen, List.dropWhile_cons, hcur, himplied name hname]
    rfl
  have htake : (within nodes (cur :: below) allowed).take (.endTag ⟨name, [], false⟩)
      = (within nodes (cur :: below) allowed).apply (.endTag ⟨name, [], false⟩) := rfl
  rw [htake]
  refine apply_within hframe ?_
  rw [inBody, bodyEnd_of_mem_blocks hname, if_pos hscope, hclose]
  refine congrArg done ?_
  have hopen : (within nodes (cur :: below) allowed).openElements = cur :: below := rfl
  rw [popUntilNamed, popUntil, hopen, List.dropWhile_cons, hcur, beq_self_eq_true]
  rfl

/-- A character goes behind the content. -/
theorem apply_char (below : List Nat) (allowed : Bool) (h : IsFrame nodes cur) {c : Char}
    (hc : c ≠ '\x00') :
    ∃ allowed', (within nodes (cur :: below) allowed).apply (.char c)
      = within (nodes.modify cur (Node.receive [.char c])) (cur :: below) allowed' := by
  have hinsert : (within nodes (cur :: below) allowed).reopen.insertChar c
      = within (nodes.modify cur (Node.receive [.char c])) (cur :: below) allowed := by
    have hreopen : (within nodes (cur :: below) allowed).reopen.insertChar c
        = { within nodes (cur :: below) allowed with
            nodes := nodes.toArray.modify cur (Node.receive [.char c]) } := rfl
    rw [hreopen, List.modify_toArray]
    rfl
  by_cases hblank : isAsciiBlank c = true
  · refine ⟨allowed, apply_within h ?_⟩
    rw [inBody, if_neg hc, if_pos hblank, hinsert]
  · refine ⟨false, apply_within h ?_⟩
    rw [inBody, if_neg hc, if_neg hblank, hinsert]
    rfl

/-- So does a text. -/
theorem take_chars (below : List Nat) (allowed : Bool) (h : IsFrame nodes cur) {t : Text}
    (ht : '\x00' ∉ t) :
    ∃ allowed', (within nodes (cur :: below) allowed).take (.chars t)
      = within (nodes.modify cur (Node.receive (t.reverse.map .char))) (cur :: below) allowed' := by
  have hfold (t : Text) (nodes : List Node) (allowed : Bool) (h : IsFrame nodes cur) (ht : '\x00' ∉ t) :
      ∃ allowed', t.foldl (fun b c => b.apply (.char c)) (within nodes (cur :: below) allowed)
        = within (nodes.modify cur (Node.receive (t.reverse.map .char))) (cur :: below) allowed' := by
    induction t generalizing nodes allowed with
    | nil =>
      have hid : Node.receive [] = id := rfl
      refine ⟨allowed, ?_⟩
      rw [List.foldl_nil, List.reverse_nil, List.map_nil, hid, List.modify_id]
    | cons c t ih =>
      obtain ⟨hc, ht⟩ := not_or.1 (fun hor => ht (List.mem_cons.2 hor))
      obtain ⟨between, hchar⟩ := apply_char below allowed h (Ne.symm hc)
      obtain ⟨allowed', hrest⟩ := ih (nodes.modify cur (Node.receive [.char c])) between h.receive ht
      refine ⟨allowed', ?_⟩
      rw [List.foldl_cons, hchar, hrest, List.modify_modify_eq, Node.receive_comp]
      simp
  cases t with
  | nil => exact hfold [] nodes allowed h ht
  | cons c t => exact hfold (c :: t) nodes allowed h ht

end

/-! ## The beginning of a document -/

/-- The root, the head and the body, as they are supplied. -/
def page : List Node :=
  [⟨⟨.html, "html"⟩, [], [.child 2, .child 1]⟩, ⟨⟨.html, "head"⟩, [], []⟩, ⟨⟨.html, "body"⟩, [], []⟩]

theorem isFrame_page : ∀ id ∈ [2, 0], IsFrame page id := by
  have hbody : IsFrame page 2 := ⟨_, rfl, "body", by decide, rfl⟩
  have hroot : IsFrame page 0 := ⟨_, rfl, "html", by decide, rfl⟩
  exact List.forall_mem_cons.2 ⟨hbody, List.forall_mem_singleton.2 hroot⟩

/-- A piece that the rules hand on. -/
theorem applyWithin_handOn {b b' : Construction} {piece : Piece} (hforeign : b.isForeign piece = false)
    (hstep : b.byMode b.mode piece = ⟨b', true⟩) (n : Nat) :
    applyWithin (n + 1) b piece = applyWithin n b' piece := by
  rw [applyWithin, hforeign, hstep]
  rfl

/-- The states before the body, in which no more than its surroundings is supplied. -/
def supplied (mode : Mode) (nodes : List Node) (openElements : List Nat) (head : Option Nat) :
    Construction :=
  { nodes := nodes.toArray
    openElements := openElements
    mode := mode
    head := head
    oldLayout := true }

/-- The rules before the body hand a block on until root, head and body are there. -/
theorem applyWithin_first {name : Text} {attributes : List (Text × Text)} (hname : name ∈ blocks)
    (n : Nat) :
    applyWithin (n + 5) {} (.startTag ⟨name, attributes, false⟩)
      = applyWithin n (within page [2, 0] true) (.startTag ⟨name, attributes, false⟩) := by
  have hnames : ∀ name ∈ blocks, name ≠ "html" ∧ name ≠ "head" := by decide
  obtain ⟨hne, hne'⟩ := hnames name hname
  have hinitial : byMode {} .initial (.startTag ⟨name, attributes, false⟩)
      = ⟨supplied .beforeHtml [] [] none, true⟩ := rfl
  have hroot : byMode (supplied .beforeHtml [] [] none) .beforeHtml
        (.startTag ⟨name, attributes, false⟩)
      = ⟨supplied .beforeHead [⟨⟨.html, "html"⟩, [], []⟩] [0] none, true⟩ := if_neg hne
  have hhead : byMode (supplied .beforeHead [⟨⟨.html, "html"⟩, [], []⟩] [0] none) .beforeHead
        (.startTag ⟨name, attributes, false⟩)
      = ⟨supplied .inHead
          [⟨⟨.html, "html"⟩, [], [.child 1]⟩, ⟨⟨.html, "head"⟩, [], []⟩] [1, 0] (some 1), true⟩ :=
    (if_neg hne).trans (if_neg hne')
  have hleave : byMode (supplied .inHead
          [⟨⟨.html, "html"⟩, [], [.child 1]⟩, ⟨⟨.html, "head"⟩, [], []⟩] [1, 0] (some 1)) .inHead
        (.startTag ⟨name, attributes, false⟩)
      = ⟨supplied .afterHead
          [⟨⟨.html, "html"⟩, [], [.child 1]⟩, ⟨⟨.html, "head"⟩, [], []⟩] [0] (some 1), true⟩ := by
    simp only [blocks, List.mem_cons, List.not_mem_nil, or_false] at hname
    rcases hname with rfl | rfl | rfl <;> rfl
  have hbody : byMode (supplied .afterHead
          [⟨⟨.html, "html"⟩, [], [.child 1]⟩, ⟨⟨.html, "head"⟩, [], []⟩] [0] (some 1)) .afterHead
        (.startTag ⟨name, attributes, false⟩)
      = ⟨within page [2, 0] true, true⟩ := by
    simp only [blocks, List.mem_cons, List.not_mem_nil, or_false] at hname
    rcases hname with rfl | rfl | rfl <;> rfl
  rw [applyWithin_handOn rfl hinitial, applyWithin_handOn rfl hroot, applyWithin_handOn rfl hhead,
    applyWithin_handOn rfl hleave, applyWithin_handOn rfl hbody]

/-- The first start tag is read as if its root, head and body had been there. -/
theorem take_first {name : Text} {attributes : List (Text × Text)} (hname : name ∈ blocks) :
    take {} (.startTag ⟨name, attributes, false⟩)
      = (within page [2, 0] true).take (.startTag ⟨name, attributes, false⟩) := by
  have htake : take {} (.startTag ⟨name, attributes, false⟩)
      = applyWithin (35 + 5) {} (.startTag ⟨name, attributes, false⟩) := rfl
  have htake' : (within page [2, 0] true).take (.startTag ⟨name, attributes, false⟩)
      = applyWithin (39 + 1) (within page [2, 0] true) (.startTag ⟨name, attributes, false⟩) := rfl
  rw [htake, htake', applyWithin_first hname, applyWithin_within (isFrame_page 2 List.mem_cons_self) rfl,
    applyWithin_within (isFrame_page 2 List.mem_cons_self) rfl]

/-! ## Reading tags and text -/

section

variable {b : Construction} {token : Token} {t rest : Text}

/-- A token is read and taken, and reading goes on behind it. -/
theorem readText_token (hne : t ≠ [])
    (hread : ∀ foreign, Token.read foreign (t ++ rest) = (some token, rest))
    (hmode : b.mode ≠ .text) (hraw : (b.take token).raw = none) :
    b.readText (t ++ rest) = (b.take token).readText rest := by
  obtain ⟨c, s, rfl⟩ := List.exists_cons_of_ne_nil hne
  have hbehind : b.textBehind (some token) rest = rest := by
    cases token <;> simp [textBehind, hmode]
  have hlength : rest.length ≤ (s ++ rest).length := by simp
  have hread' := hread b.inOtherVocabulary
  rw [List.cons_append] at hread' ⊢
  rw [readText, hread']
  simp only [hbehind, hraw, if_pos hlength]

end

section

variable {nodes : List Node} {cur : Nat} {below : List Nat} {allowed : Bool} {name rest : Text}
  {attributes : List (Text × Text)}

theorem isSmallName_of_mem_blocks (h : name ∈ blocks) : isSmallName name = true := by
  have hsmall : ∀ name ∈ blocks, isSmallName name = true := by decide
  exact hsmall name h

theorem startTagText_ne_nil (closing : Bool) : startTagText name attributes closing ≠ [] :=
  List.cons_ne_nil '<' _

theorem endTagText_ne_nil (name : Text) : endTagText name ≠ [] := List.cons_ne_nil '<' _

/-- A start tag that was written opens its element. -/
theorem readText_startTag (hname : name ∈ blocks)
    (hattributes : ∀ a ∈ attributes, isSmallName a.1 = true ∧ Literal a.2)
    (honce : (attributes.map (·.1)).Nodup) (h : ∀ id ∈ cur :: below, IsFrame nodes id) :
    (within nodes (cur :: below) allowed).readText (startTagText name attributes false ++ rest)
      = (within (nodes.modify cur (Node.receive [.child nodes.length])
            ++ [⟨⟨.html, name⟩, attributes, []⟩])
          (nodes.length :: cur :: below) allowed).readText rest := by
  have hread (foreign : Bool) := read_startTagText (isSmallName_of_mem_blocks hname) hattributes honce
    foreign rest
  have htake := take_startTag attributes allowed hname h
  rw [readText_token (startTagText_ne_nil false) hread (by simp [within]) (by rw [htake]; rfl), htake]

/-- An end tag that was written closes its element. -/
theorem readText_endTag (hname : name ∈ blocks) {node : Node} (hnode : nodes[cur]? = some node)
    (hnamed : node.name = ⟨.html, name⟩) :
    (within nodes (cur :: below) allowed).readText (endTagText name ++ rest)
      = (within nodes below allowed).readText rest := by
  have hread (foreign : Bool) := read_endTagText (isSmallName_of_mem_blocks hname) foreign rest
  have htake := take_endTag below allowed hname hnode hnamed
  rw [readText_token (endTagText_ne_nil name) hread (by simp [within]) (by rw [htake]; rfl), htake]

/-- Text in front of a tag becomes content. -/
theorem readText_chars (below : List Nat) (allowed : Bool) (h : IsFrame nodes cur) {t : Text}
    (ht : Literal t)
    (hrest : ∀ c ∈ rest.head?, c = '<') : ∃ allowed',
    (within nodes (cur :: below) allowed).readText (t ++ rest)
      = (within (nodes.modify cur (Node.receive (t.reverse.map .char))) (cur :: below)
          allowed').readText rest := by
  by_cases hne : t = []
  · have hid : Node.receive (([] : Text).reverse.map .char) = id := rfl
    refine ⟨allowed, ?_⟩
    rw [hne, hid, List.modify_id, List.nil_append]
  · obtain ⟨allowed', htake⟩ := take_chars below allowed h
      (ht.not_mem (by decide))
    refine ⟨allowed', ?_⟩
    rw [readText_token hne (read_text ht hne hrest) (by simp [within]) (by rw [htake]; rfl), htake]

end

/-! ## What a text builds -/

/-- Wherever in the body the text is read in front of a tag, the element opened last gets the content
and the document the nodes behind those it has.  Both may refer to places among the new nodes, so they
depend on how many there are before. -/
def Builds (t : Text) (content : Nat → List Content) (new : Nat → List Node) : Prop :=
  ∀ (nodes : List Node) (cur : Nat) (below : List Nat) (allowed : Bool) (rest : Text),
    (∀ id ∈ cur :: below, IsFrame nodes id) → (∀ c ∈ rest.head?, c = '<') → ∃ allowed',
      (within nodes (cur :: below) allowed).readText (t ++ rest)
        = (within (nodes.modify cur (Node.receive (content nodes.length)) ++ new nodes.length)
            (cur :: below) allowed').readText rest

namespace Builds

variable {s t : Text} {content content' : Nat → List Content} {new new' : Nat → List Node}

theorem nil : Builds [] (fun _ => []) (fun _ => []) := by
  intro nodes cur below allowed rest _ _
  have hid : Node.receive [] = id := rfl
  refine ⟨allowed, ?_⟩
  rw [hid, List.modify_id, List.append_nil, List.nil_append]

theorem chars (ht : Literal t) : Builds t (fun _ => t.reverse.map .char) (fun _ => []) := by
  intro nodes cur below allowed rest hframes hrest
  obtain ⟨allowed', hread⟩ := readText_chars below allowed
    (hframes cur List.mem_cons_self) ht hrest
  refine ⟨allowed', ?_⟩
  rw [hread, List.append_nil]

theorem append (hs : Builds s content new) (ht : Builds t content' new')
    (hopens : ∀ c ∈ t.head?, c = '<') :
    Builds (s ++ t) (fun base => content' (base + (new base).length) ++ content base)
      (fun base => new base ++ new' (base + (new base).length)) := by
  intro nodes cur below allowed rest hframes hrest
  have hbetween : ∀ c ∈ (t ++ rest).head?, c = '<' := by
    cases t with
    | nil => exact hrest
    | cons c t => exact hopens
  obtain ⟨between, hs⟩ := hs nodes cur below allowed (t ++ rest) hframes hbetween
  obtain ⟨allowed', ht⟩ := ht (nodes.modify cur (Node.receive (content nodes.length)) ++ new nodes.length)
    cur below between rest (fun id hid => (hframes id hid).receive.append) hrest
  refine ⟨allowed', ?_⟩
  have hcur : cur < (nodes.modify cur (Node.receive (content nodes.length))).length := by
    rw [List.length_modify]
    exact (hframes cur List.mem_cons_self).lt_length
  rw [List.append_assoc, hs, ht, modify_append hcur, List.modify_modify_eq, Node.receive_comp,
    List.length_append, List.length_modify, List.append_assoc]

/-- A block with what is built between its tags. -/
theorem block {name : Text} {attributes : List (Text × Text)} (hname : name ∈ blocks)
    (hattributes : ∀ a ∈ attributes, isSmallName a.1 = true ∧ Literal a.2)
    (honce : (attributes.map (·.1)).Nodup) (h : Builds t content new) :
    Builds (startTagText name attributes false ++ (t ++ endTagText name)) (fun base => [.child base])
      (fun base => ⟨⟨.html, name⟩, attributes, content (base + 1)⟩ :: new (base + 1)) := by
  intro nodes cur below allowed rest hframes hrest
  have hlength : (nodes.modify cur (Node.receive [.child nodes.length])).length = nodes.length :=
    List.length_modify ..
  generalize hnodes : nodes.modify cur (Node.receive [.child nodes.length]) = nodes' at hlength
  have hopened : ∀ id ∈ nodes.length :: cur :: below,
      IsFrame (nodes' ++ [⟨⟨.html, name⟩, attributes, []⟩]) id := by
    refine List.forall_mem_cons.2 ⟨?_, fun id hid => ?_⟩
    · rw [← hlength]
      exact isFrame_new hname nodes' attributes []
    · rw [← hnodes]
      exact (hframes id hid).receive.append
  obtain ⟨allowed', hinner⟩ := h (nodes' ++ [⟨⟨.html, name⟩, attributes, []⟩]) nodes.length
    (cur :: below) allowed (endTagText name ++ rest) hopened
    (fun c hc => (Option.some.inj hc).symm)
  obtain ⟨built, hbuilt⟩ : ∃ built : Node,
      built = ⟨⟨.html, name⟩, attributes, content (nodes.length + 1)⟩ := ⟨_, rfl⟩
  have hcount : (nodes' ++ [(⟨⟨.html, name⟩, attributes, []⟩ : Node)]).length = nodes.length + 1 := by
    rw [List.length_append, hlength, List.length_singleton]
  have hgrown : (nodes' ++ [(⟨⟨.html, name⟩, attributes, []⟩ : Node)]).modify nodes.length
        (Node.receive (content (nodes.length + 1))) ++ new (nodes.length + 1)
      = nodes' ++ built :: new (nodes.length + 1) := by
    rw [← hlength, modify_length, hlength, hbuilt]
    simp [Node.receive]
  have hnode : (nodes' ++ built :: new (nodes.length + 1))[nodes.length]? = some built := by
    rw [← hlength, List.getElem?_append_right (Nat.le_refl _), Nat.sub_self]
    rfl
  have hnamed : built.name = ⟨.html, name⟩ := by rw [hbuilt]
  refine ⟨allowed', ?_⟩
  rw [List.append_assoc, List.append_assoc, readText_startTag hname hattributes honce hframes, hnodes,
    hinner, hcount, hgrown, readText_endTag hname hnode hnamed, hbuilt]

end Builds

/-- Where markup begins with a block, it is read as if it stood in a body. -/
theorem readText_first {name rest : Text} {attributes : List (Text × Text)} (hname : name ∈ blocks)
    (hattributes : ∀ a ∈ attributes, isSmallName a.1 = true ∧ Literal a.2)
    (honce : (attributes.map (·.1)).Nodup) :
    readText {} (startTagText name attributes false ++ rest)
      = (within page [2, 0] true).readText (startTagText name attributes false ++ rest) := by
  have hread (foreign : Bool) := read_startTagText (isSmallName_of_mem_blocks hname) hattributes honce
    foreign rest
  have htake := take_startTag attributes true hname isFrame_page
  have hraw : ((within page [2, 0] true).take (.startTag ⟨name, attributes, false⟩)).raw = none := by
    rw [htake]
    rfl
  rw [readText_token (startTagText_ne_nil false) hread (by simp) (by rw [take_first hname, hraw]),
    readText_token (startTagText_ne_nil false) hread (by simp [within]) hraw, take_first hname]

end Construction

end WidgetCompiler.Markup
