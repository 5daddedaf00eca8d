/-!
# Yaml — Node

The tree that a YAML text describes.  A node may carry an anchor, and an alias stands for a node
with one.  Where a node is left out, a blank one is meant, which is not the same as an empty scalar
that is written in quotes.
-/

namespace SceneScript.Yaml

/-- A node of a YAML document; anchors are known by their numbers. -/
inductive Node where
  /-- Nothing is written, an anchor and a tag apart. -/
  | blank (anchor : Option Nat)
  | scalar (anchor : Option Nat) (text : String)
  | sequence (anchor : Option Nat) (items : List Node)
  | mapping (anchor : Option Nat) (entries : List (Node × Node))
  | alias (anchor : Nat)
  deriving Repr, Inhabited

namespace Node

mutual

/-- The nodes of a tree that have an anchor, in the order of the text. -/
def anchored : Node → List (Nat × Node)
  | .blank a           => (a.map fun n => (n, .blank a)).toList
  | .scalar a text     => (a.map fun n => (n, .scalar a text)).toList
  | .sequence a items  => (a.map fun n => (n, .sequence a items)).toList ++ anchoredItems items
  | .mapping a entries =>
    (a.map fun n => (n, .mapping a entries)).toList ++ anchoredEntries entries
  | .alias _           => []

/-- The nodes with an anchor in the items of a sequence. -/
def anchoredItems : List Node → List (Nat × Node)
  | []            => []
  | item :: items => anchored item ++ anchoredItems items

/-- The nodes with an anchor in the entries of a mapping. -/
def anchoredEntries : List (Node × Node) → List (Nat × Node)
  | []               => []
  | (k, v) :: others => anchored k ++ anchored v ++ anchoredEntries others

end

mutual

/-- The size of a tree: one for a node without members, and for a collection one for its start, one
for its end and the sizes of its members. -/
def size : Node → Nat
  | .blank _           => 1
  | .scalar _ _        => 1
  | .alias _           => 1
  | .sequence _ items  => sizeItems items + 2
  | .mapping _ entries => sizeEntries entries + 2

/-- The sizes of the items of a sequence, added up. -/
def sizeItems : List Node → Nat
  | []            => 0
  | item :: items => size item + sizeItems items

/-- The sizes of the keys and values of a mapping, added up. -/
def sizeEntries : List (Node × Node) → Nat
  | []               => 0
  | (k, v) :: others => size k + size v + sizeEntries others

end

end Node

end SceneScript.Yaml
