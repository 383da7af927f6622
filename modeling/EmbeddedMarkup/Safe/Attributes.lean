import EmbeddedMarkup.Decimal.Number
import EmbeddedMarkup.Safe.Content

/-!
# Attributes

Attributes come as a mapping and as keywords, where a keyword wins over an entry of the mapping.
They are written in ascending order of their names, so the result does not depend on the order in
which they were given.

A mapping may also be given as the sequence of its entries, each of which yields a name and a value.
Two names are the same entry if they compare equal, whether or not they are safe text, and the entry
keeps the name that came first.
-/

namespace EmbeddedMarkup.Safe

namespace Value

def number? : Value → Option Decimal.Number
  | bool b => some (.whole (if b then 1 else 0))
  | int n => some (.whole n)
  | float x => some (.float x)
  | number n _ => some n
  | _ => Option.none

def lessBytes : List UInt8 → List UInt8 → Bool
  | [], [] => false
  | [], _ :: _ => true
  | _ :: _, [] => false
  | b :: bs, c :: cs => if b = c then lessBytes bs cs else decide (b < c)

mutual

def same : Value → Value → Bool
  | none, none => true
  | str s, v => v.chars? == some s
  | safe s, v => v.chars? == some s
  | bytes bs, bytes cs => bs == cs
  | tuple xs, tuple ys => sameItems xs ys
  | v, w =>
      match v.number?, w.number? with
      | some m, some n => m.same n
      | _, _ => false

def sameItems : List Value → List Value → Bool
  | [], [] => true
  | v :: vs, w :: ws => same v w && sameItems vs ws
  | _, _ => false

end

mutual

/-- Whether the first key is the smaller; none if the two cannot be compared. -/
def less? : Value → Value → Option Bool
  | str s, v => v.chars?.map fun t => s != t && Text.le s t
  | safe s, v => v.chars?.map fun t => s != t && Text.le s t
  | bytes bs, bytes cs => some (lessBytes bs cs)
  | tuple xs, tuple ys => lessItems? xs ys
  | v, w =>
      match v.number?, w.number? with
      | some m, some n => some (m.less n)
      | _, _ => Option.none

def lessItems? : List Value → List Value → Option Bool
  | [], [] => some false
  | [], _ :: _ => some true
  | _ :: _, [] => some false
  | v :: vs, w :: ws => if same v w then lessItems? vs ws else less? v w

end

mutual

def isKey : Value → Bool
  | list _ => false
  | dict _ => false
  | tuple items => areKeys items
  | _ => true

def areKeys : List Value → Bool
  | [] => true
  | v :: vs => isKey v && areKeys vs

end

end Value

abbrev Entries := List (Value × Value)

def Entries.put (k v : Value) : Entries → Entries
  | [] => [(k, v)]
  | (k', v') :: rest => if k.same k' then (k', v) :: rest else (k', v') :: Entries.put k v rest

def Entries.putAll (new entries : Entries) : Entries :=
  new.foldl (fun es (k, v) => Entries.put k v es) entries

def entryOf (index : Nat) (item : Value) : Except CallError (Value × Value) :=
  match item.items? with
  | none => .error .wrongType
  | some (_, some failure) => .error failure.error
  | some ([k, v], none) => if k.isKey then .ok (k, v) else .error .wrongType
  | some (parts, none) => .error (.notPair index parts.length)

def Entries.addItems (entries : Entries) (index : Nat) : List Value → Except CallError Entries
  | [] => .ok entries
  | item :: rest => do
      let (k, v) ← entryOf index item
      Entries.addItems (entries.put k v) (index + 1) rest

/-- The entries of what was given as a mapping; what counts as false has none. -/
def Entries.ofValue (v : Value) : Except CallError Entries :=
  if !v.isTrue then .ok []
  else
    match v with
    | .dict entries => .ok entries
    | v =>
        match v.items? with
        | none => .error .wrongType
        | some (items, stop) => do
            let entries ← Entries.addItems [] 0 items
            match stop with
            | none => return entries
            | some failure => .error failure.error

def Entries.areComparable : Entries → Bool
  | [] => true
  | (k, _) :: rest => rest.all (fun e => (k.less? e.1).isSome) && Entries.areComparable rest

def Entries.sorted (entries : Entries) : Except CallError Entries :=
  if entries.areComparable then
    .ok (entries.mergeSort fun a b => b.1.less? a.1 != some true)
  else
    .error .wrongType

def attributeName : Value → Except CallError Text
  | .safe s => .ok (Text.strip s)
  | .str s => .ok (Text.strip (escape s))
  | _ => .error .wrongType

def assignment (name value : Text) : Text := name ++ ['=', '"'] ++ value ++ ['"']

def assigned (name : Text) (v : Value) : Except CallError (Option Text) :=
  v.writeFormatted.map fun t => some (assignment name t)

/-- How an attribute with this name and value is written; nothing for a value of another kind. -/
def attributeText (name : Text) : Value → Except CallError (Option Text)
  | .bool true => .ok (some name)
  | .safe s => .ok (some (assignment name s))
  | .str s => .ok (some (assignment name (escape s)))
  | .int n => assigned name (.int n)
  | .float x => assigned name (.float x)
  | .number n w => assigned name (.number n w)
  | .markup v => assigned name v
  | _ => .ok none

def isOmitted : Value → Bool
  | .none => true
  | .bool false => true
  | _ => false

def entryText (k v : Value) : Except CallError (Option Text) :=
  if isOmitted v then .ok none
  else do
    let name ← attributeName k
    if name.isEmpty then return none else attributeText name v

def entryTexts : Entries → Except CallError (List Text)
  | [] => .ok []
  | (k, v) :: rest => do
      let here ← entryText k v
      return here.toList ++ (← entryTexts rest)

def attributes (mapping : Value) (keywords : List (Text × Value)) : Except CallError Value := do
  let entries ← Entries.ofValue mapping
  let all := Entries.putAll (keywords.map fun (k, v) => (.str k, v)) entries
  return .safe (Text.join [' '] (← entryTexts (← Entries.sorted all)))

end EmbeddedMarkup.Safe
