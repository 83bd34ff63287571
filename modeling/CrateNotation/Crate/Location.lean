/-!
# Ids, spans and kept text of crate nodes

Every larger node of a crate has an id, and most nodes have a span: a range of bytes in the file
that the crate was made from, with a tag for the hygiene context of macros.  Both have a dummy
value for nodes that have none of their own.

Bounds are integers here, and nothing keeps a span from running backwards: these are plain data,
and whoever makes them out of text checks them against `maxIndex`.

## Main Definitions

* `NodeId`, `Span` — ids and spans, with `NodeId.dummy` and `Span.dummy`
* `ModSpans`, `DelSpan` — pairs of spans
* `TokenStream` — the kept text of tokens
* `Attribute`, `GenericParam`, `WherePredicate` — parts of nodes that are not accepted yet
-/

namespace CrateNotation

/-- The greatest number that ids and the bounds of spans may have. -/
def maxIndex : Int := 0xFFFFFFFF

/-- The id of a node. -/
structure NodeId where
  value : Int
deriving DecidableEq

namespace NodeId

/-- The id of nodes that have none of their own. -/
def dummy : NodeId := ⟨maxIndex⟩

/-- Whether an id is the dummy. -/
def isDummy (id : NodeId) : Bool :=
  id = dummy

end NodeId

/-- The bytes from `lo` up to `hi`, in a hygiene context. -/
structure Span where
  lo : Int
  hi : Int
  ctxt : Int := 0
deriving DecidableEq

namespace Span

/-- The span of nodes that have none of their own. -/
def dummy : Span := ⟨0, 0, 0⟩

/-- Whether a span is the dummy. -/
def isDummy (span : Span) : Bool :=
  span = dummy

end Span

/-- Where the contents of a module are, and where imports may be put. -/
structure ModSpans where
  inner : Span := .dummy
  injectUse : Span := .dummy
deriving DecidableEq

/-- Where a pair of delimiters is. -/
structure DelSpan where
  opening : Span := .dummy
  closing : Span := .dummy
deriving DecidableEq

/-- The kept text of tokens. -/
structure TokenStream where
  source : String := ""
deriving DecidableEq

/-- An attribute. None are accepted yet. -/
structure Attribute where
deriving DecidableEq

/-- A generic parameter. None are accepted yet. -/
structure GenericParam where
deriving DecidableEq

/-- A predicate of a where clause. None are accepted yet. -/
structure WherePredicate where
deriving DecidableEq

end CrateNotation
