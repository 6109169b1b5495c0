import WidgetCompiler.Proofs.Markup.Normal

/-!
# Forests as nested tags

`markup` writes a forest of blocks as nested tags, each start tag with the attributes that `order` gives
its element.  Reading it adds the nodes of the forest to the document in preorder: the element at a place
is followed by those of its first child (`layout`), so the places of its children are known from the
sizes of the subtrees before them (`places`).  That the markup builds these nodes (`builds_markup`) is an
induction on the forest.

From the nodes the elements are read back (`elementAt_layout`), so for forests in normal form
`parseFragment` inverts `markup`; and the scan for start tags, which reads the same text without a tree,
finds the names of the same elements in preorder (`parseFragment_markup`).
-/

namespace WidgetCompiler.Markup

open Text Construction

/-! ## Writing -/

section

variable (order : Element → List (Text × Text))

mutual

/-- An element as nested tags, its text in front of its children. -/
def markupOf : Element → Text
  | ⟨tag, classes, id, text, attributes, children, selector⟩ =>
    startTagText tag (order ⟨tag, classes, id, text, attributes, children, selector⟩) false
      ++ (text.getD [] ++ (markup children ++ endTagText tag))

/-- A forest as nested tags. -/
def markup : List Element → Text
  | [] => []
  | e :: es => markupOf e ++ markup es

end

theorem markupOf_eq (e : Element) : markupOf order e = startTagText e.tag (order e) false
    ++ (e.text.getD [] ++ (markup order e.children ++ endTagText e.tag)) := by
  cases e
  rw [markupOf]

/-! ## Nodes in preorder -/

/-- The places of the elements of a forest of which the first stands at `base`. -/
def places (base : Nat) : List Element → List Nat
  | [] => []
  | e :: es => base :: places (base + e.count) es

mutual

/-- The nodes of an element that stands at `base`, and of all elements in it. -/
def layout (base : Nat) : Element → List Node
  | ⟨tag, classes, id, text, attributes, children, selector⟩ =>
    ⟨⟨.html, tag⟩, order ⟨tag, classes, id, text, attributes, children, selector⟩,
      (places (base + 1) children).reverse.map .child ++ (text.getD []).reverse.map .char⟩
      :: layoutAll (base + 1) children

/-- The nodes of a forest, from `base` on. -/
def layoutAll (base : Nat) : List Element → List Node
  | [] => []
  | e :: es => layout base e ++ layoutAll (base + e.count) es

end

/-- The node of an element itself. -/
def nodeOf (base : Nat) (e : Element) : Node :=
  ⟨⟨.html, e.tag⟩, order e,
    (places (base + 1) e.children).reverse.map .child ++ (e.text.getD []).reverse.map .char⟩

theorem layout_eq (base : Nat) (e : Element) :
    layout order base e = nodeOf order base e :: layoutAll order (base + 1) e.children := by
  cases e
  rw [layout, nodeOf]

mutual

theorem length_layout : (base : Nat) → (e : Element) → (layout order base e).length = e.count
  | base, ⟨_, _, _, _, _, children, _⟩ => by
    rw [layout, List.length_cons, length_layoutAll (base + 1) children, Element.count, Nat.add_comm]

theorem length_layoutAll : (base : Nat) → (es : List Element) →
    (layoutAll order base es).length = Element.countAll es
  | _, [] => rfl
  | base, e :: es => by
    rw [layoutAll, List.length_append, length_layout base e, length_layoutAll (base + e.count) es,
      Element.countAll]

end

/-! ## What is built -/

/-- All elements are in normal form, and their attributes are those that `order` gives them. -/
def Ordered (es : List Element) : Prop := ∀ e ∈ es, e.Normal ∧ Orders (order e) e

variable {order}

theorem Orders.readable {e : Element} {as : List (Text × Text)} (h : Orders as e) (he : e.Normal) :
    (∀ a ∈ as, isSmallName a.1 = true ∧ Literal a.2) ∧ (as.map (·.1)).Nodup :=
  ⟨fun a ha => he.carried a (h.perm.mem_iff.1 ha), (h.perm.map (·.1)).nodup_iff.2 he.nodup_carried⟩

theorem head?_markup (order : Element → List (Text × Text)) (es : List Element) :
    ∀ c ∈ (markup order es).head?, c = '<' := by
  cases es with
  | nil => simp [markup]
  | cons e es =>
    rw [markup, markupOf_eq]
    rintro c hc
    exact (Option.some.inj hc).symm

mutual

theorem builds_markupOf : (e : Element) → Ordered order (Element.preorder e) →
    Builds (markupOf order e) (fun base => [.child base]) (fun base => layout order base e)
  | ⟨tag, classes, id, text, attributes, children, selector⟩, h => by
    rw [Element.preorder, Ordered, List.forall_mem_cons] at h
    obtain ⟨⟨hnormal, horder⟩, hchildren⟩ := h
    obtain ⟨hattributes, honce⟩ := horder.readable hnormal
    have htext : Literal (text.getD []) := by
      cases text with
      | none => exact List.forall_mem_nil _
      | some t => exact (hnormal.text t rfl).2.2
    have hinner := (Builds.chars htext).append (builds_markup children hchildren)
      (head?_markup order children)
    have hblock := hinner.block hnormal.tag hattributes honce
    rw [List.append_assoc] at hblock
    simpa only [markupOf, layout, List.length_nil, Nat.add_zero, List.nil_append] using hblock

theorem builds_markup : (es : List Element) → Ordered order (Element.preorderAll es) →
    Builds (markup order es) (fun base => (places base es).reverse.map .child)
      (fun base => layoutAll order base es)
  | [], _ => .nil
  | e :: es, h => by
    rw [Element.preorderAll, Ordered, List.forall_mem_append] at h
    have hforest := (builds_markupOf e h.1).append (builds_markup es h.2) (head?_markup order es)
    simpa only [markup, places, layoutAll, length_layout, List.reverse_cons, List.map_append,
      List.map_cons, List.map_nil] using hforest

end

/-! ## What is read back -/

section

variable {before behind : List Node}

theorem directText_nodeOf (order : Element → List (Text × Text)) (base : Nat) (e : Element) :
    directText (nodeOf order base e) = e.text.getD [] := by
  simp [directText, nodeOf, List.filterMap_map, List.map_reverse]

theorem childrenOf_nodeOf (order : Element → List (Text × Text)) {e : Element} (htag : e.tag ∈ blocks)
    (base : Nat) :
    childrenOf (nodeOf order base e) = places (base + 1) e.children := by
  have hnames : ∀ name ∈ blocks, name ≠ "template" := by decide
  have hname : (nodeOf order base e).name ≠ ⟨.html, "template"⟩ :=
    fun h => hnames e.tag htag (congrArg ElementName.name h)
  rw [childrenOf, if_neg hname]
  simp [nodeOf, List.filterMap_map, List.map_reverse]

mutual

/-- The element at a place is the one that was laid out there. -/
theorem elementAt_layout : (e : Element) → Ordered order (Element.preorder e) →
    ∀ (before behind : List Node) (depth : Nat), e.count ≤ depth →
      elementAt (before ++ (layout order before.length e ++ behind)).toArray depth before.length
        = some e
  | ⟨tag, classes, id, text, attributes, children, selector⟩, h, before, behind, depth, hdepth => by
    rw [Element.preorder, Ordered, List.forall_mem_cons] at h
    obtain ⟨⟨hnormal, horder⟩, hordered⟩ := h
    rw [Element.count] at hdepth
    obtain ⟨depth, rfl⟩ : ∃ d, depth = d + 1 := ⟨depth - 1, by omega⟩
    have hmake := hnormal.make_eq horder
    have hplaces := childrenOf_nodeOf order hnormal.tag before.length
    have htext := directText_nodeOf order before.length
      ⟨tag, classes, id, text, attributes, children, selector⟩
    rw [layout_eq]
    generalize hnode : nodeOf order before.length
      ⟨tag, classes, id, text, attributes, children, selector⟩ = node at hplaces htext
    have hname : node.name = ⟨.html, tag⟩ := by rw [← hnode, nodeOf]
    have hattributes : node.attributes
        = order ⟨tag, classes, id, text, attributes, children, selector⟩ := by rw [← hnode, nodeOf]
    have hnames : ∀ name ∈ blocks, (⟨.html, name⟩ : ElementName) ≠ ⟨.html, "template"⟩ := by decide
    have hchildren := filterMap_elementAt_layoutAll children hordered (before ++ [node]) behind depth
      (by omega)
    rw [List.length_append, List.length_singleton, List.append_assoc, List.singleton_append,
      ← List.cons_append] at hchildren
    have hat : (before ++ (node :: layoutAll order (before.length + 1) children ++ behind)).toArray[
        before.length]? = some node := by simp
    rw [elementAt, hat]
    simp only [hplaces, hchildren, hname, hattributes, htext, if_neg (hnames tag hnormal.tag)]
    exact congrArg some hmake

/-- The elements at the places of a forest are those of the forest. -/
theorem filterMap_elementAt_layoutAll : (es : List Element) →
    Ordered order (Element.preorderAll es) →
    ∀ (before behind : List Node) (depth : Nat), Element.countAll es ≤ depth →
      (places before.length es).filterMap
        (elementAt (before ++ (layoutAll order before.length es ++ behind)).toArray depth) = es
  | [], _, _, _, _, _ => rfl
  | e :: es, h, before, behind, depth, hdepth => by
    rw [Element.preorderAll, Ordered, List.forall_mem_append] at h
    rw [Element.countAll] at hdepth
    have hfirst := elementAt_layout e h.1 before
      (layoutAll order (before.length + e.count) es ++ behind) depth (by omega)
    have hrest := filterMap_elementAt_layoutAll es h.2 (before ++ layout order before.length e) behind
      depth (by omega)
    rw [List.length_append, length_layout, List.append_assoc] at hrest
    rw [places, layoutAll, List.append_assoc, List.filterMap_cons_some hfirst, hrest]

end

end

/-! ## The document -/

theorem return_not_mem_startTagText {name : Text} {as : List (Text × Text)} (hname : '\r' ∉ name)
    (has : ∀ a ∈ as, '\r' ∉ a.1 ∧ '\r' ∉ a.2) : '\r' ∉ startTagText name as false := by
  have hattributes : '\r' ∉ attributesText as := by
    intro hmem
    obtain ⟨a, ha, hmem⟩ := List.mem_flatMap.1 hmem
    obtain ⟨hfirst, hsecond⟩ := has a ha
    simp [attributeText, hfirst, hsecond] at hmem
  simp [startTagText, tailText, hname, hattributes]

mutual

theorem return_not_mem_markupOf : (e : Element) → Ordered order (Element.preorder e) →
    '\r' ∉ markupOf order e
  | ⟨tag, classes, id, text, attributes, children, selector⟩, h => by
    rw [Element.preorder, Ordered, List.forall_mem_cons] at h
    obtain ⟨⟨hnormal, horder⟩, hordered⟩ := h
    have htag : '\r' ∉ tag :=
      (literal_of_isSmallName (isSmallName_of_mem_blocks hnormal.tag)).not_mem (by decide)
    have htext : '\r' ∉ text.getD [] := by
      cases text with
      | none => simp
      | some t => exact (hnormal.text t rfl).2.2.not_mem (by decide)
    have hstart := return_not_mem_startTagText htag fun a ha =>
      have hread := (horder.readable hnormal).1 a ha
      ⟨(literal_of_isSmallName hread.1).not_mem (by decide), hread.2.not_mem (by decide)⟩
    rw [markupOf]
    simp [hstart, htext, return_not_mem_markup children hordered, endTagText, htag]

theorem return_not_mem_markup : (es : List Element) → Ordered order (Element.preorderAll es) →
    '\r' ∉ markup order es
  | [], _ => by simp [markup]
  | e :: es, h => by
    rw [Element.preorderAll, Ordered, List.forall_mem_append] at h
    rw [markup, List.mem_append, not_or]
    exact ⟨return_not_mem_markupOf e h.1, return_not_mem_markup es h.2⟩

end

/-- The text that the document is read from is the markup. -/
theorem documentText_markup {es : List Element} (h : Ordered order (Element.preorderAll es)) :
    documentText (markup order es) = markup order es := by
  have hreturn := return_not_mem_markup es h
  have hopens := head?_markup order es
  have hmark : dropByteOrderMark (markup order es) = markup order es := by
    generalize markup order es = m at hopens
    cases m with
    | nil => rfl
    | cons c m =>
      obtain rfl := hopens c rfl
      rfl
  rw [documentText, hmark, normalizeLineEnds_eq_self hreturn]

/-! ## The scan for start tags -/

mutual

theorem map_name_scanFrom_markupOf : (e : Element) → Ordered order (Element.preorder e) →
    ∀ (offset : Nat) (rest : Text), (scanFrom offset (markupOf order e ++ rest)).map (·.name)
      = (Element.preorder e).map (·.tag)
        ++ (scanFrom (offset + (markupOf order e).length) rest).map (·.name)
  | ⟨tag, classes, id, text, attributes, children, selector⟩, h, offset, rest => by
    rw [Element.preorder, Ordered, List.forall_mem_cons] at h
    obtain ⟨⟨hnormal, horder⟩, hordered⟩ := h
    have hsmall := isSmallName_of_mem_blocks hnormal.tag
    have hraw : ∀ name ∈ blocks, name ∉ rawTextNames := by decide
    have hangle : '<' ∉ tag := (literal_of_isSmallName hsmall).not_mem (by decide)
    have htext : '<' ∉ text.getD [] := by
      cases text with
      | none => simp
      | some t => exact (hnormal.text t rfl).2.2.not_mem (by decide)
    have hreadable : ∀ a ∈ order ⟨tag, classes, id, text, attributes, children, selector⟩,
        Readable a := fun a ha =>
      have hread := (horder.readable hnormal).1 a ha
      ⟨hread.1, hread.2.not_mem (by decide)⟩
    have hchildren := map_name_scanFrom_markup children hordered
    rw [markupOf, List.append_assoc, List.append_assoc, List.append_assoc,
      scanFrom_startTagText hsmall (hraw tag hnormal.tag) hreadable, List.map_cons,
      scanFrom_of_not_mem htext, hchildren, scanFrom_endTagText hangle, Element.preorder,
      List.map_cons, List.cons_append]
    simp only [writtenTag, List.length_append, Nat.add_assoc]

theorem map_name_scanFrom_markup : (es : List Element) → Ordered order (Element.preorderAll es) →
    ∀ (offset : Nat) (rest : Text), (scanFrom offset (markup order es ++ rest)).map (·.name)
      = (Element.preorderAll es).map (·.tag)
        ++ (scanFrom (offset + (markup order es).length) rest).map (·.name)
  | [], _, offset, rest => by
    rw [markup, Element.preorderAll]
    rfl
  | e :: es, h, offset, rest => by
    rw [Element.preorderAll, Ordered, List.forall_mem_append] at h
    rw [markup, List.append_assoc, map_name_scanFrom_markupOf e h.1,
      map_name_scanFrom_markup es h.2, Element.preorderAll, List.map_append, List.append_assoc,
      List.length_append, Nat.add_assoc]

end

/-! ## Reading what is written -/

/-- What the body of the page holds. -/
theorem bodyElements_within {es : List Element} (h : Ordered order (Element.preorderAll es))
    (ids : List Nat) (allowed : Bool) :
    (Construction.within (page.modify 2 (Node.receive ((places page.length es).reverse.map .child))
      ++ layoutAll order page.length es) ids allowed).bodyElements = es := by
  generalize hb : Construction.within (page.modify 2 (Node.receive
    ((places page.length es).reverse.map .child)) ++ layoutAll order page.length es) ids allowed = b
  obtain ⟨body, hbody⟩ : ∃ body : Node, body
      = Node.receive ((places page.length es).reverse.map .child) ⟨⟨.html, "body"⟩, [], []⟩ := ⟨_, rfl⟩
  have hname : body.name = ⟨.html, "body"⟩ := by rw [hbody]; rfl
  have hnodes : b.nodes = ([⟨⟨.html, "html"⟩, [], [.child 2, .child 1]⟩, ⟨⟨.html, "head"⟩, [], []⟩,
      body] ++ layoutAll order page.length es).toArray := by
    rw [← hb, hbody]
    rfl
  have hfind : [1, 2].find? (b.isHtml · "body") = some 2 := by
    have hhead : b.nameOf 1 = ⟨.html, "head"⟩ := by rw [nameOf, hnodes]; rfl
    have hbody : b.nameOf 2 = body.name := by rw [nameOf, hnodes]; rfl
    rw [List.find?_cons, isHtml, hhead, List.find?_cons, isHtml, hbody, hname]
    rfl
  have hroot : b.nodes[0]? = some ⟨⟨.html, "html"⟩, [], [.child 2, .child 1]⟩ := by rw [hnodes]; rfl
  have hat : b.nodes[2]? = some body := by rw [hnodes]; rfl
  have hchildren : childrenOf body = places page.length es := by
    have htemplate : ¬ body.name = ⟨.html, "template"⟩ := by rw [hname]; decide
    rw [childrenOf, if_neg htemplate, hbody]
    simp [Node.receive, List.filterMap_map, List.map_reverse]
  have hdepth : Element.countAll es ≤ b.nodes.size := by
    rw [hnodes, List.size_toArray, List.length_append, length_layoutAll]
    omega
  have hread := filterMap_elementAt_layoutAll es h [⟨⟨.html, "html"⟩, [], [.child 2, .child 1]⟩,
    ⟨⟨.html, "head"⟩, [], []⟩, body] [] b.nodes.size hdepth
  have hplaces : childrenOf ⟨⟨.html, "html"⟩, [], [.child 2, .child 1]⟩ = [1, 2] := rfl
  rw [List.append_nil] at hread
  rw [bodyElements, hroot]
  simp only [hplaces, hfind, hat, hchildren]
  rw [hnodes] at hread ⊢
  exact hread

/-- Reading the markup of a forest gives the forest. -/
theorem parseFragment_eq_self {es : List Element} (h : Ordered order (Element.preorderAll es)) :
    parseFragment (markup order es) = es := by
  cases es with
  | nil => rfl
  | cons e es =>
    have hfirst := h e (Element.mem_preorderAll_of_mem List.mem_cons_self)
    obtain ⟨hattributes, honce⟩ := hfirst.2.readable hfirst.1
    have hshape : markup order (e :: es) = startTagText e.tag (order e) false
        ++ (e.text.getD [] ++ (markup order e.children ++ endTagText e.tag) ++ markup order es) := by
      rw [markup, markupOf_eq, List.append_assoc]
    have hblank : ¬ allBlank (markup order (e :: es)) = true := by
      rw [hshape]
      exact Bool.false_ne_true
    obtain ⟨allowed, hbuilt⟩ := builds_markup (e :: es) h page 2 [0] true [] isFrame_page (by simp)
    have hfinish (b : Construction) : b.readText [] = b.finish := by rw [readText]
    rw [parseFragment, if_neg hblank, documentText_markup h, hshape,
      readText_first hfirst.1.tag hattributes honce, ← hshape, ← List.append_nil (markup order (e :: es)),
      hbuilt, hfinish]
    exact bodyElements_within h [2, 0] allowed

/-- A forest in normal form is read back from its markup as it is, whatever the order of the attributes in
its tags, and the scan for start tags finds the tags of its elements in preorder, as many as the forest
that was read has elements. -/
theorem parseFragment_markup {forest : List Element}
    (h : ∀ e ∈ Element.preorderAll forest, e.Normal)
    (horder : ∀ e ∈ Element.preorderAll forest, Orders (order e) e) :
    parseFragment (markup order forest) = forest
      ∧ (scanStartTags (markup order forest)).map (·.name)
        = (Element.preorderAll (parseFragment (markup order forest))).map (·.tag)
      ∧ Element.countAll (parseFragment (markup order forest))
        = (scanStartTags (markup order forest)).length := by
  have hordered : Ordered order (Element.preorderAll forest) := fun e he => ⟨h e he, horder e he⟩
  have hread := parseFragment_eq_self hordered
  have hscan : (scanStartTags (markup order forest)).map (·.name)
      = (Element.preorderAll forest).map (·.tag) := by
    have hnames := map_name_scanFrom_markup forest hordered 0 []
    have hend (offset : Nat) : scanFrom offset [] = [] := by rw [scanFrom]
    rwa [List.append_nil, hend, List.map_nil, List.append_nil] at hnames
  refine ⟨hread, by rw [hread, hscan], ?_⟩
  have hlength := congrArg List.length hscan
  rw [List.length_map, List.length_map, Element.length_preorderAll] at hlength
  rw [hread, hlength]

end

/-- A block with a text and a value in which marks of tags stand. -/
def leadElement : Element :=
  ⟨"article", ["lead"], none, some "it's > 1 = 1", [("data-x", "a=b > 'c'")], [],
    selectorOf "article" none ["lead"]⟩

/-- A section with blocks in blocks. -/
def sectionElement : Element :=
  ⟨"section", ["wide", "dark"], some "main area", none, [("title", "all"), ("lang", "en")],
    [leadElement, ⟨"div", [], none, none, [], [⟨"div", [], none, some "deep", [], [], "div"⟩], "div"⟩],
    selectorOf "section" (some "main area") ["wide", "dark"]⟩

theorem parseFragment_markup_section :
    (∀ e ∈ Element.preorderAll [sectionElement, leadElement], e.Normal ∧ Orders e.carried e)
      ∧ markup Element.carried [sectionElement, leadElement]
        = "<section id=\"main area\" class=\"wide dark\" title=\"all\" lang=\"en\">"
          ++ "<article class=\"lead\" data-x=\"a=b > 'c'\">it's > 1 = 1</article>"
          ++ "<div><div>deep</div></div></section>"
          ++ "<article class=\"lead\" data-x=\"a=b > 'c'\">it's > 1 = 1</article>"
      ∧ parseFragment (markup Element.carried [sectionElement, leadElement])
        = [sectionElement, leadElement]
      ∧ (scanStartTags (markup Element.carried [sectionElement, leadElement])).map (·.name)
        = [("section" : Text), "article", "div", "div", "article"] := by
  have hnormal : ∀ e ∈ Element.preorderAll [sectionElement, leadElement], e.Normal := by
    decide +kernel
  have horder : ∀ e ∈ Element.preorderAll [sectionElement, leadElement], Orders e.carried e :=
    fun e he => (hnormal e he).orders_carried
  obtain ⟨hread, hscan, -⟩ := parseFragment_markup hnormal horder
  refine ⟨fun e he => ⟨hnormal e he, horder e he⟩, by decide +kernel, hread, ?_⟩
  rw [hscan, hread]
  decide +kernel

end WidgetCompiler.Markup
