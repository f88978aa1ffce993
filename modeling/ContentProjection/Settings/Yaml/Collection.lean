import ContentProjection.Settings.Yaml.Plain
import ContentProjection.Settings.Yaml.Token

/-!
# Collections of a YAML document

Tokens are read as the values they write. An indented list has a dash before each
item, and the list of a key may do without an indentation of its own; an indented
group has keys and values. In brackets the items of a list and the members of a
group are divided by commas, and one may stand behind the last. A member alone in
a list of brackets is a group of its own. What is left out is null, a key that is
left out is empty; of equal keys the last counts. A collection may not stand too
deep in others.
-/
namespace ContentProjection.Settings.Yaml

/-- At most this many collections stand inside each other. -/
def maxDepth : Nat := 128

def ofScalar (quoted : Bool) (text : List Char) : Layer :=
  if quoted then .text (String.ofList text) else plain text

/-- The item of an indented list is left out before these. -/
def lacksItem : List Token → Bool
  | .item :: _ => true
  | .key :: _ => true
  | .value :: _ => true
  | .collectionEnd :: _ => true
  | _ => false

/-- A key or a value of an indented group is left out before these. -/
def lacksMember : List Token → Bool
  | .key :: _ => true
  | .value :: _ => true
  | .collectionEnd :: _ => true
  | _ => false

/-- A value inside brackets is left out before these. -/
def lacksValue : List Token → Bool
  | .comma :: _ => true
  | .closeList :: _ => true
  | .closeGroup :: _ => true
  | _ => false

/-- The text of a scalar as a key. -/
def key? : List Token → Option (String × List Token)
  | .scalar _ text :: rest => some (String.ofList text, rest)
  | _ => none

/-- A key of an indented group, after its mark. -/
def groupKey? (ts : List Token) : Option (String × List Token) :=
  if lacksMember ts then some ("", ts) else key? ts

/-- A key in braces, and whether a value may follow it: one without a mark has none. -/
def bracedKey? : List Token → Option (Bool × String × List Token)
  | .key :: .value :: rest => some (true, "", .value :: rest)
  | .key :: rest =>
    if lacksValue rest then some (true, "", rest)
    else (key? rest).map fun (key, after) => (true, key, after)
  | ts => (key? ts).map fun (key, after) => (false, key, after)

/-- The key of a member alone in a list. What stands in place of the key is skipped. -/
def aloneKey? : List Token → Option (String × List Token)
  | .value :: rest => some ("", rest)
  | .comma :: rest => some ("", rest)
  | .closeList :: rest => some ("", rest)
  | ts => key? ts

/-- What stands behind the comma before the next element of a bracketed collection. -/
def afterComma? (isFirst : Bool) (ts : List Token) : Option (List Token) :=
  if isFirst then some ts
  else
    match ts with
    | .comma :: rest => some rest
    | _ => none

mutual

/-- The value that starts here; as a member of a group it may be a list without an
indentation of its own. `depth` is how many collections may stand inside each other. -/
def value? (fuel depth : Nat) (isMember : Bool) (ts : List Token) :
    Option (Layer × List Token) :=
  match fuel, depth, ts with
  | _ + 1, _, .scalar quoted text :: rest => some (ofScalar quoted text, rest)
  | fuel + 1, depth + 1, .item :: rest =>
    if isMember then
      (items? fuel depth false (.item :: rest)).map fun (items, after) => (.list items, after)
    else none
  | fuel + 1, depth + 1, .listStart :: rest =>
    (items? fuel depth true rest).map fun (items, after) => (.list items, after)
  | fuel + 1, depth + 1, .groupStart :: rest =>
    (members? fuel depth rest).map fun (members, after) => (Layer.ofEntries members, after)
  | fuel + 1, depth + 1, .openList :: rest =>
    (bracketItems? fuel depth true rest).map fun (items, after) => (.list items, after)
  | fuel + 1, depth + 1, .openGroup :: rest =>
    (bracedMembers? fuel depth true rest).map fun (members, after) =>
      (Layer.ofEntries members, after)
  | _, _, _ => none

/-- The items of a list, up to its end if it has an indentation of its own. -/
def items? (fuel depth : Nat) (isIndented : Bool) (ts : List Token) :
    Option (List Layer × List Token) :=
  match fuel, ts with
  | 0, _ => none
  | fuel + 1, .item :: rest =>
    (if lacksItem rest then some (.null, rest) else value? fuel depth false rest).bind
      fun (item, after) =>
        (items? fuel depth isIndented after).map fun (items, after') => (item :: items, after')
  | _ + 1, .collectionEnd :: rest =>
    some ([], if isIndented then rest else .collectionEnd :: rest)
  | _ + 1, ts => if isIndented then none else some ([], ts)

/-- The members of an indented group up to its end. -/
def members? (fuel depth : Nat) (ts : List Token) :
    Option (List (String × Layer) × List Token) :=
  match fuel, ts with
  | fuel + 1, .key :: rest =>
    (groupKey? rest).bind fun (key, afterKey) =>
      let found : Option (Layer × List Token) :=
        match afterKey with
        | .value :: more =>
          if lacksMember more then some (.null, more) else value? fuel depth true more
        | _ => some (.null, afterKey)
      found.bind fun (value, after) =>
        (members? fuel depth after).map fun (members, after') => ((key, value) :: members, after')
  | _ + 1, .collectionEnd :: rest => some ([], rest)
  | _, _ => none

/-- The value behind a key inside brackets. -/
def bracketValue? (fuel depth : Nat) (ts : List Token) : Option (Layer × List Token) :=
  match fuel, ts with
  | 0, _ => none
  | fuel + 1, .value :: rest =>
    if lacksValue rest then some (.null, rest) else value? fuel depth false rest
  | _ + 1, ts => some (.null, ts)

/-- The items of a list in brackets up to the closing one. -/
def bracketItems? (fuel depth : Nat) (isFirst : Bool) (ts : List Token) :
    Option (List Layer × List Token) :=
  match fuel, ts with
  | 0, _ => none
  | _ + 1, .closeList :: rest => some ([], rest)
  | fuel + 1, ts =>
    (afterComma? isFirst ts).bind fun start =>
      match depth, start with
      | _, .closeList :: rest => some ([], rest)
      | 0, .key :: _ => none
      | inner + 1, .key :: rest =>
        (aloneKey? rest).bind fun (key, afterKey) =>
          (bracketValue? fuel inner afterKey).bind fun (value, after) =>
            (bracketItems? fuel depth false after).map fun (items, after') =>
              (.group [(key, value)] :: items, after')
      | _, _ =>
        (value? fuel depth false start).bind fun (item, after) =>
          (bracketItems? fuel depth false after).map fun (items, after') =>
            (item :: items, after')

/-- The members of a group in braces up to the closing one. -/
def bracedMembers? (fuel depth : Nat) (isFirst : Bool) (ts : List Token) :
    Option (List (String × Layer) × List Token) :=
  match fuel, ts with
  | 0, _ => none
  | _ + 1, .closeGroup :: rest => some ([], rest)
  | fuel + 1, ts =>
    (afterComma? isFirst ts).bind fun start =>
      match start with
      | .closeGroup :: rest => some ([], rest)
      | _ =>
        (bracedKey? start).bind fun (takesValue, key, afterKey) =>
          let found : Option (Layer × List Token) :=
            if takesValue then bracketValue? fuel depth afterKey else some (.null, afterKey)
          found.bind fun (value, after) =>
            (bracedMembers? fuel depth false after).map fun (members, after') =>
              ((key, value) :: members, after')

end

end ContentProjection.Settings.Yaml
