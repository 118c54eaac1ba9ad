import Argumentation.Markup.Token

/-!
# Names of nodes

A node may be given a name, and where the name stands behind an asterisk the node itself is meant.
Names are judged on the tokens, so that a name that is wrong keeps its place among the other faults
of the text: a name has to be given before it is used, and it may be given only once.
-/

namespace Argumentation.Markup

/-- The tokens behind a name that has been given before, up to the fault. The fault is that of the
node, so the tag beside the name and the token behind both are looked at first. -/
def refuseNode : List Token → List Token
  | .tag t :: .fault f :: _ => [.tag t, .fault f]
  | .tag t :: _ => [.tag t, .fault .malformed]
  | .fault f :: _ => [.fault f]
  | _ => [.fault .malformed]

/-- The tokens up to the first name that is wrong. `known` holds the names that have been given. -/
def checkNames (known : List String) : List Token → List Token
  | [] => []
  | .anchor name :: ts =>
    .anchor name ::
      if known.contains name then refuseNode ts else checkNames (name :: known) ts
  | .aliasOf name :: ts =>
    if known.contains name then .aliasOf name :: checkNames known ts else [.fault .malformed]
  | t :: ts => t :: checkNames known ts

end Argumentation.Markup
