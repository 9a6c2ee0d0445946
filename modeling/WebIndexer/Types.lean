import Mathlib.Data.Int.Notation

/-! The records of `src/types.ts` that the modelled components exchange. -/

namespace WebIndexer

/-- `FrontierItem`, without the row id that only rows of the table carry. -/
structure FrontierItem where
  url : String
  depth : Int
  parent : Option String
  deriving DecidableEq, Repr

/-- `PageData`, the argument of `saveNode`. -/
structure PageData where
  url : String
  title : String
  desc : String
  dom : String
  depth : Int
  parent : Option String
  pop : Nat
  lang : String
  https : Nat
  metaDescription : String
  ogTitle : String
  ogDescription : String
  contentLength : Nat
  crawledAt : Nat
  origUrl : String
  deriving DecidableEq, Repr

/-- `ParsedPage`, the result of `parsePage`. -/
structure ParsedPage where
  title : String
  metaDescription : String
  ogTitle : String
  ogDescription : String
  lang : String
  links : List String
  contentLength : Nat
  deriving DecidableEq, Repr

/-- `TreeNode`, a row of `nodes` without the columns that the tree does not show. -/
structure TreeNode where
  url : String
  title : String
  domain : String
  depth : Int
  parent : Option String
  popularity : Nat
  https : Nat
  deriving DecidableEq, Repr

/-- `TreeEdge`, a number of links between two domains. -/
structure TreeEdge where
  src : String
  dst : String
  w : Nat
  deriving DecidableEq, Repr

/-- `TreeData`, which the tree messages of the crawler carry. -/
structure TreeData where
  nodes : List TreeNode
  edges : List TreeEdge
  total : Nat
  domains : Nat
  deriving DecidableEq, Repr

end WebIndexer
