import CrateNotation.Text.Quoted

/-!
# Tables of tags

The forms of a union are told apart by the tag at the head of a list.  A tag table lists the tags
of one union in the order of their registration, each with what it stands for.  No tag is
registered twice.

## Main Definitions

* `TagTable` — tags and what they stand for
* `TagTable.register` — a table with one more tag
* `TagTable.find?` — what a tag stands for
* `TagTable.expected` — the tags as messages list them
-/

namespace CrateNotation

open Text (quoted)

/-- The tags of one union. -/
structure TagTable (β : Type) where
  /-- What the union is called. -/
  category : String
  /-- The tags in the order of their registration, each with what it stands for. -/
  entries : List (String × β) := []
  distinct : (entries.map (·.1)).Nodup := by simp

namespace TagTable

variable {β : Type}

/-- A tag that a table has already. -/
structure Duplicate where
  category : String
  tag : String
deriving DecidableEq

/-- The wording of the error. -/
def Duplicate.message (e : Duplicate) : String :=
  s!"{e.category} tag {quoted e.tag} registered twice"

/-- The tags of a table, in the order of their registration. -/
def tags (table : TagTable β) : List String :=
  table.entries.map (·.1)

/-- Whether a table has a tag. -/
def contains (table : TagTable β) (tag : String) : Bool :=
  tag ∈ table.tags

/-- A table with one more tag. -/
def register (table : TagTable β) (tag : String) (value : β) : Except Duplicate (TagTable β) :=
  if h : tag ∈ table.entries.map (·.1) then .error ⟨table.category, tag⟩
  else .ok
    { table with
      entries := table.entries ++ [(tag, value)]
      distinct := by
        rw [List.map_append, List.nodup_append]
        refine ⟨table.distinct, by simp, ?_⟩
        simp only [List.map_cons, List.map_nil, List.mem_singleton, forall_eq]
        exact fun a ha hat => h (hat ▸ ha) }

/-- What a tag stands for. -/
def find? (table : TagTable β) (tag : String) : Option β :=
  table.entries.lookup tag

/-- The tags as messages list them. -/
def expected (table : TagTable β) : String :=
  ", ".intercalate table.tags

/-- The quoted tags between parentheses. A comma marks a single tag as one of a row. -/
def tagTuple : List String → String
  | [tag] => s!"({quoted tag},)"
  | tags => "(" ++ ", ".intercalate (tags.map quoted) ++ ")"

/-- A table as it is shown to its makers. -/
def describe (table : TagTable β) : String :=
  s!"TagTable({quoted table.category}, tags={tagTuple table.tags})"

@[simp]
theorem tags_register {table table' : TagTable β} {tag : String} {value : β}
    (h : table.register tag value = .ok table') : table'.tags = table.tags ++ [tag] := by
  unfold register at h
  split at h
  · simp at h
  · simp only [Except.ok.injEq] at h
    subst h
    simp [tags]

end TagTable

end CrateNotation
