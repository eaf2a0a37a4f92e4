import ReversePolish.Tree

set_option autoImplicit false

/-! # Diagrams

A tree drawn with lines of text, the root at the top left:

    /
    |
    |
    |___1.0
    |
    |___2.0

Two connector lines follow an operator and one stands between its subtrees. A subtree is indented
by four characters, the left one behind a continued vertical line and the right one behind
spaces. No line break ends the diagram. -/

namespace ReversePolish

namespace Tree

/-- The diagram of a tree in which every line but the first starts with `indent`. -/
def diagramFrom (indent : String) : Tree String String → String
  | leaf a => a
  | node op l r =>
    op ++ "\n" ++
      indent ++ "|\n" ++
      indent ++ "|\n" ++
      indent ++ "|___" ++ l.diagramFrom (indent ++ "|   ") ++ "\n" ++
      indent ++ "|\n" ++
      indent ++ "|___" ++ r.diagramFrom (indent ++ "    ")

/-- The diagram of a tree. -/
def diagram (t : Tree String String) : String :=
  t.diagramFrom ""

end Tree

end ReversePolish
