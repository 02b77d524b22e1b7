import Lodger.Xml

namespace Lodger.Xml

-- `Element::write_with_config` of the crate, with the settings of `write`.
class Emitter where
  write : Element → String

def Element.new (name : String) : Element := .mk name [] []

def textElement (name text : String) : Element := .mk name [] [.text text]

def elementWith (name : String) (attributes : List (String × String)) : Element :=
  .mk name attributes []

def Element.push (parent child : Element) : Element :=
  .mk parent.name parent.attributes (parent.children ++ [.element child])

def Element.pushText (parent : Element) (text : String) : Element :=
  .mk parent.name parent.attributes (parent.children ++ [.text text])

-- A character of XML 1.0 that is not a tab, a line feed or a carriage return.
def xmlChar (c : Char) : Bool := 0x20 ≤ c.toNat && c.toNat ≠ 0xfffe && c.toNat ≠ 0xffff

def xmlText (s : String) : Bool := s.toList.all xmlChar

mutual
def Element.clean : Element → Bool
  | .mk _ attributes children => attributes.all (xmlText ·.2) && cleanNodes children
def XMLNode.clean : XMLNode → Bool
  | .element e => e.clean
  | .text s => !s.toList.isEmpty && xmlText s
  | .other => false
def cleanNodes : List XMLNode → Bool
  | [] => true
  | node :: nodes => node.clean && cleanNodes nodes
end

mutual
def Element.names : Element → List String
  | .mk name _ children => name :: nodeNames children
def XMLNode.names : XMLNode → List String
  | .element e => e.names
  | _ => []
def nodeNames : List XMLNode → List String
  | [] => []
  | node :: nodes => node.names ++ nodeNames nodes
end

section Trees

variable (parent child : Element) (name text : String) (attributes : List (String × String))

attribute [local simp] Element.clean XMLNode.clean cleanNodes Element.names XMLNode.names nodeNames

@[simp] theorem name_new : (Element.new name).name = name := rfl
@[simp] theorem name_textElement : (textElement name text).name = name := rfl
@[simp] theorem name_elementWith : (elementWith name attributes).name = name := rfl
@[simp] theorem name_push : (parent.push child).name = parent.name := rfl
@[simp] theorem name_pushText : (parent.pushText text).name = parent.name := rfl

@[simp] theorem attr_elementWith (key : String) :
    attr (elementWith name attributes) key = attributes.lookup key := rfl
@[simp] theorem attr_push (key : String) : attr (parent.push child) key = attr parent key := rfl

@[simp] theorem elements_new : (Element.new name).elements = [] := rfl
@[simp] theorem elements_elementWith : (elementWith name attributes).elements = [] := rfl
@[simp] theorem elements_push : (parent.push child).elements = parent.elements ++ [child] := by
  simp [Element.elements, Element.push, Element.children, XMLNode.asElement]

@[simp] theorem getChild_new (key : String) : (Element.new name).getChild key = none := rfl
@[simp] theorem getChild_elementWith (key : String) :
    (elementWith name attributes).getChild key = none := rfl
@[simp] theorem getChild_push (key : String) : (parent.push child).getChild key =
    (parent.getChild key).or (if child.name = key then some child else none) := by
  by_cases hk : child.name = key
  · simp [Element.getChild, List.find?_append, hk]
  · simp [Element.getChild, List.find?_append, hk]

@[simp] theorem text_textElement :
    (textElement name text).children.findSome? XMLNode.asText = some text := rfl

theorem cleanNodes_append (a b : List XMLNode) :
    cleanNodes (a ++ b) = (cleanNodes a && cleanNodes b) := by
  induction a with
  | nil => simp
  | cons node a ih => simp [ih, Bool.and_assoc]

theorem nodeNames_append (a b : List XMLNode) : nodeNames (a ++ b) = nodeNames a ++ nodeNames b := by
  induction a with
  | nil => simp
  | cons node a ih => simp [ih]

@[simp] theorem clean_new : (Element.new name).clean = true := by
  simp [Element.new]
@[simp] theorem clean_elementWith :
    (elementWith name attributes).clean = attributes.all (xmlText ·.2) := by
  simp [elementWith]
@[simp] theorem clean_textElement :
    (textElement name text).clean = (!text.toList.isEmpty && xmlText text) := by
  simp [textElement]
@[simp] theorem clean_push : (parent.push child).clean = (parent.clean && child.clean) := by
  cases parent
  simp [Element.push, Element.attributes, Element.children, cleanNodes_append, Bool.and_assoc]
@[simp] theorem clean_pushText : (parent.pushText text).clean =
    (parent.clean && (!text.toList.isEmpty && xmlText text)) := by
  cases parent
  simp [Element.pushText, Element.attributes, Element.children, cleanNodes_append, Bool.and_assoc]

@[simp] theorem names_new : (Element.new name).names = [name] := by
  simp [Element.new]
@[simp] theorem names_elementWith : (elementWith name attributes).names = [name] := by
  simp [elementWith]
@[simp] theorem names_textElement : (textElement name text).names = [name] := by
  simp [textElement]
@[simp] theorem names_push : (parent.push child).names = parent.names ++ child.names := by
  cases parent
  simp [Element.push, Element.name, Element.children, nodeNames_append]
@[simp] theorem names_pushText : (parent.pushText text).names = parent.names := by
  cases parent
  simp [Element.pushText, Element.name, Element.children, nodeNames_append]

end Trees

-- The name of a tag never starts like a declaration.
def tagName (name : String) : Bool := name.toList.head?.any (· ≠ '!')

section Crate

variable [Xmltree] [Emitter]

def write (e : Element) : String := Emitter.write e

-- What the crate promises of a tree. A '<' inside a text or a value is escaped, so
-- that each '<' of the document opens a start tag or an end tag.
structure Emitted (e : Element) : Prop where
  escapes : ∀ before after, (write e).toList = before ++ '<' :: after →
    ['/'] <+: after ∨ ∃ name ∈ e.names, name.toList <+: after
  readsBack : e.clean = true → Xmltree.parse (write e) = .ok e

variable {e : Element}

omit [Xmltree] [Emitter] in
theorem doctype_toList : "<!DOCTYPE".toList = '<' :: '!' :: "DOCTYPE".toList := by decide

theorem Emitted.no_doctype (h : Emitted e) (hnames : e.names.all tagName = true) :
    ¬"<!DOCTYPE".toList <:+: (write e).toList := by
  rintro ⟨before, after, heq⟩
  have hsplit : (write e).toList = before ++ '<' :: '!' :: ("DOCTYPE".toList ++ after) := by
    rw [← heq, doctype_toList]
    simp only [List.append_assoc, List.cons_append]
  obtain hp | ⟨name, hm, hp⟩ := h.escapes _ _ hsplit
  · have hhead := (List.cons_prefix_cons.mp hp).1
    revert hhead
    decide
  · have ht := List.all_eq_true.mp hnames name hm
    cases hc : name.toList with
    | nil => simp [tagName, hc] at ht
    | cons c rest =>
        rw [hc] at hp
        have hhead := (List.cons_prefix_cons.mp hp).1
        simp [tagName, hc, hhead] at ht

-- A clean tree whose tags have plain names parses back from its document.
theorem parse_write (h : Emitted e) (hclean : e.clean = true)
    (hnames : e.names.all tagName = true) :
    parse (write e) e.name = .ok e := by
  have hd := h.no_doctype hnames
  unfold parse
  split
  · next hm => exact absurd hm hd
  · rw [h.readsBack hclean]
    simp

end Crate

end Lodger.Xml
