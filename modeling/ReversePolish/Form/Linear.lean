import ReversePolish.Tree

set_option autoImplicit false

/-! # Forms on one line

The two fully bracketed forms of a tree whose labels are texts. A leaf is its text; an operator
stands between or in front of its subtrees, and every part is set off by single spaces. -/

namespace ReversePolish

namespace Tree

/-- The form `( left op right )`. -/
def infixForm : Tree String String → String
  | leaf a => a
  | node op l r => "( " ++ l.infixForm ++ " " ++ op ++ " " ++ r.infixForm ++ " )"

/-- The form `( op left right )`. -/
def prefixForm : Tree String String → String
  | leaf a => a
  | node op l r => "( " ++ op ++ " " ++ l.prefixForm ++ " " ++ r.prefixForm ++ " )"

end Tree

end ReversePolish
