import Conveyor.Json.Basic

/-!
Schemas of JSON values, as far as definition documents need them. What a record's field says of
itself stands over what its type says.
-/

namespace Conveyor

/-- What stands for a field that is left out. -/
inductive Presence where
  | required
  | withDefault (value : Json)
  /-- The field may be null as well. -/
  | optional

inductive Schema where
  | text
  | instant
  | int32
  | boolean
  | list (items : Schema)
  /-- Fields have a name, a description, a presence and a schema. -/
  | record (description : String) (fields : List (String × String × Presence × Schema))

namespace Schema

def typeMember (name : String) : String × Json := ("type", .string name)

/-- The names of the fields that may not be left out, in order. -/
def requiredNames (fields : List (String × String × Presence × Schema)) : List String :=
  let names := fields.filterMap fun (name, _, presence, _) =>
    match presence with
    | .required => some (name, ())
    | _ => none
  (Dict.ofList names : NameSet).keys

/-- What the presence of a field adds to its schema. -/
def presenceMembers : Presence → List (String × Json)
  | .required => []
  | .withDefault value => [("default", value)]
  | .optional => [("nullable", .bool true)]

mutual

/-- The members of the schema's object. -/
def members : Schema → List (String × Json)
  | text => [typeMember "string"]
  | instant => [typeMember "string", ("format", .string "date-time")]
  | int32 => [typeMember "integer", ("format", .string "int32")]
  | boolean => [typeMember "boolean"]
  | list items => [typeMember "array", ("items", .ofMembers (members items))]
  | record description fields =>
    [typeMember "object", ("description", .string description),
      ("properties", .ofMembers (properties fields))] ++
      match requiredNames fields with
      | [] => []
      | names => [("required", .strings names)]

/-- The schemas of a record's fields. -/
def properties : List (String × String × Presence × Schema) → List (String × Json)
  | [] => []
  | (name, description, presence, schema) :: fields =>
    (name, .ofMembers (members schema ++
      ("description", .string description) :: presenceMembers presence)) :: properties fields

end

end Schema

end Conveyor
