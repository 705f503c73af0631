import FeatureLines.Schema.Descriptor

/-!
# Extraction

`Catalogue.extract` lists the features of a record type in the order of their declaration, members in place of the
records they hold. Namespace and group flow down to the members of a record unless a member names its own. A record
without features of its own counts as a feature when its member is one, and is left out when it is not.

A type that is met while its own members are being listed is an error. The types that may still be opened get fewer with
every record that is entered, which is why listing ends.
-/

namespace FeatureLines

/-- The scope of the members below a member with attributes. -/
def Scope.enter (scope : Scope) (attributes : Attributes) : Scope :=
  ⟨attributes.namespaceName <|> scope.namespaceName, attributes.group <|> scope.group⟩

namespace Role

/-- The type of a member, the scope below it, and the feature it is when its type has none. -/
def asMember? (scope : Scope) (m : Member) : Role → Option (ValueType × Scope × Option Descriptor)
  | feature attributes type override =>
    some (type, scope.enter attributes, some (.ofFeature m attributes (scope.enter attributes) type override))
  | nested type => some (type, scope, none)
  | _ => none

end Role

namespace Catalogue

/-- The features of some fields. `closed` lists the record types that are not being opened. -/
def extractFields (c : Catalogue) (closed : List Nat) (scope : Scope) (position : Nat) :
    List Field → Except SchemaError (List Descriptor)
  | [] => .ok []
  | field :: rest =>
    let member : Member := ⟨position, field.path, field.optional⟩
    let found : Except SchemaError (List Descriptor) :=
      match field.role.asMember? scope member with
      | none => .ok []
      | some (type, inner, leaf) =>
        let held : Except SchemaError (List Descriptor) :=
          match type.form with
          | .record id =>
            if _h : id ∈ closed then extractFields c (closed.erase id) inner 0 (c.fields id)
            else if id < c.length then .error (.recursiveSchema type.name field.path)
            else .ok []
          | _ => .ok []
        held.map fun ds => if ds.isEmpty then leaf.toList else ds.map (.below member)
    found.bind fun found => (extractFields c closed scope (position + 1) rest).map (found ++ ·)
termination_by fields => (closed.length, fields.length)
decreasing_by
  · rw [List.length_erase_of_mem _h]
    exact Prod.Lex.left _ _ (Nat.sub_lt (List.length_pos_of_mem _h) Nat.one_pos)
  · exact Prod.Lex.right _ (Nat.lt_succ_self _)

/-- The features of a record type, seen from a scope. -/
def extract (c : Catalogue) (scope : Scope) (id : Nat) : Except SchemaError (List Descriptor) :=
  c.extractFields ((List.range c.length).erase id) scope 0 (c.fields id)

end Catalogue

end FeatureLines
