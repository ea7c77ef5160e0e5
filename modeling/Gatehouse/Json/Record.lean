import Gatehouse.Json.Reader

/-!
# Reading records

A record is written as an object, or as an array of its members in their order. In an object members
may come in any order, members of other names are passed over, and a name that comes twice is refused.
In an array only members with a default may be left out, and only at the end.
-/

namespace Gatehouse.Json

/-- What it means when an object lacks a member. -/
inductive Presence
  /-- The member must be there. -/
  | required
  /-- The member is null then. -/
  | nullable
  /-- The member has its default then. -/
  | defaulted
  deriving Repr, DecidableEq

/-- A member of a record: its name, whether it may be missing, and how its value enters the record. -/
structure Field (α : Type) where
  name : String
  presence : Presence
  read : Reader (α → α)

def field {α β : Type} (name : String) (presence : Presence) (read : Reader β)
    (set : α → β → α) : Field α where
  name := name
  presence := presence
  read := fun cs => (read cs).map fun (b, rest) => (fun a => set a b, rest)

variable {α : Type}

def complete (fields : List (Field α)) (seen : List String) : Bool :=
  fields.all fun f => f.presence != .required || seen.contains f.name

def membersFrom (fields : List (Field α)) : Nat → Bool → List String → α → Reader α
  | 0, _, _, _, _ => .error .malformed
  | fuel + 1, first, seen, a, cs =>
    match skipSpace cs with
    | [] => .error .unfinished
    | c :: rest =>
      if c = closeBrace then
        if complete fields seen then .ok (a, rest) else .error .mismatch
      else if first then member fuel seen a (c :: rest)
      else if c = ',' then
        match skipSpace rest with
        | [] => .error .unfinished
        | rest => member fuel seen a rest
      else .error .malformed
where
  /-- One member, and those after it. -/
  member (fuel : Nat) (seen : List String) (a : α) : Reader α
    | '"' :: rest => do
      let (name, rest) ← stringBody rest
      let name := String.ofList name
      match fields.find? (·.name = name) with
      | none =>
        let rest ← skipValue (← colon rest)
        membersFrom fields fuel false seen a rest
      | some f =>
        if seen.contains name then throw .mismatch
        let (enter, rest) ← f.read (← colon rest)
        membersFrom fields fuel false (name :: seen) (enter a) rest
    | _ => .error .malformed

def arrayEnd (a : α) : Reader α := fun cs =>
  match skipSpace cs with
  | [] => .error .unfinished
  | ']' :: rest => .ok (a, rest)
  | _ => .error .malformed

def itemsInOrder (first : Bool) : List (Field α) → α → Reader α
  | [], a, cs => arrayEnd a cs
  | f :: fields, a, cs =>
    match skipSpace cs with
    | [] => .error .unfinished
    | c :: rest =>
      if c = ']' then
        if (f :: fields).all (·.presence = .defaulted) then .ok (a, rest) else .error .mismatch
      else if first then item f fields a (c :: rest)
      else if c = ',' then
        match skipSpace rest with
        | [] => .error .unfinished
        | ']' :: _ => .error .malformed
        | rest => item f fields a rest
      else .error .malformed
where
  /-- One member, and those after it. -/
  item (f : Field α) (fields : List (Field α)) (a : α) : Reader α := fun cs => do
    let (enter, rest) ← f.read cs
    itemsInOrder false fields (enter a) rest

/-- A record with these members, of which `blank` holds what stands for the missing ones. -/
def record (blank : α) (fields : List (Field α)) : Reader α := fun cs =>
  match skipSpace cs with
  | [] => .error .unfinished
  | c :: rest =>
    if c = openBrace then membersFrom fields (rest.length + 1) true [] blank rest
    else if c = '[' then itemsInOrder true fields blank rest
    else .error (wrongType (c :: rest))

end Gatehouse.Json
