import ApiSurface.Proofs.Storage.Listing

/-!
Tours of a tree, and the files that they come to.

A tour comes to a folder first and then to what is in it: to one child after the other by the bytes of
their names, with all that is below a child before the next one. A system may list the children in any
order; it is the names that a tour goes by. Links are stops like any other, and are not followed.
-/

namespace ApiSurface.Node

mutual

/-- A tour of the node: the places that it comes to, and what stands there. -/
inductive IsTour : Node → List (Location × Node) → Prop
  | leaf {node : Node} (h : node.isFolder = false) : IsTour node [([], node)]
  | folder {children sorted : List (OsString × Node)} {stops : List (Location × Node)}
      (perm : sorted.Perm children) (ordered : sorted.Pairwise fun a b => nameLe a.1 b.1)
      (below : AreTours sorted stops) : IsTour (.folder children) (([], .folder children) :: stops)

/-- Tours of one child after the other. -/
inductive AreTours : List (OsString × Node) → List (Location × Node) → Prop
  | nil : AreTours [] []
  | cons {name : OsString} {node : Node} {rest : List (OsString × Node)} {stops more : List (Location × Node)}
      (first : IsTour node stops) (others : AreTours rest more) :
      AreTours ((name, node) :: rest) (stops.map (fun stop => (name :: stop.1, stop.2)) ++ more)

end

variable {files : Nat} {node : Node} {children sorted : List (OsString × Node)}
  {stops : List (Location × Node)}

end ApiSurface.Node
