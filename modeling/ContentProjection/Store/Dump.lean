import ContentProjection.Store.Record

/-!
# Content dumps

The JSON document that a store is filled from: bundle schemas, nodes, terms,
files, aliases and the names of the defined image styles. A reader of a record
gives `none` for anything that is not such a record. Maps may repeat a key, the
last one counts; an item has the first shape that fits it.
-/
namespace ContentProjection

structure Dump where
  nodeBundles : List (String × Schema)
  termBundles : List (String × Schema)
  nodes : List NodeRecord
  terms : List TermRecord
  files : List FileRecord
  aliases : List AliasRecord
  /-- The defined image styles; every known style when absent. -/
  imageStyles : Option (List String)
  deriving Repr

def Dump.empty : Dump := ⟨[], [], [], [], [], [], none⟩

open Json

/-- A field that an object has exactly once, as a string. -/
def Item.member? (members : List (String × Tree)) (name : String) : Option String := do
  Tree.required? Tree.string? (← single? name members)

/-- The first shape that fits: a reference, a link with or without a title, a value. -/
def Item.ofTree? (t : Tree) : Option Item :=
  match t with
  | .object _ =>
    if t.isReadable then do
      let members ← t.entries? some
      let target := (member? members "target_id").map Item.target
      let link := do
        let uri ← member? members "uri"
        let title ← Tree.defaulted? "" Tree.string? (← single? "title" members)
        return Item.link uri title
      let value := (member? members "value").map Item.value
      (target.or link).or value
    else none
  | _ => none

def uuidOfTree? (t : Tree) : Option Uuid := t.string?.bind Uuid.ofString?

def fieldMapOfTree? (t : Tree) : Option (List (String × List Item)) :=
  t.entries? (Tree.list? Item.ofTree?)

def bundleMapOfTree? (t : Tree) : Option (List (String × Schema)) :=
  t.entries? (Tree.list? FieldDefinition.ofTree?)

def NodeRecord.fieldNames : List String :=
  ["nid", "uuid", "type", "title", "status", "created", "changed", "fields"]

def NodeRecord.ofTree? (t : Tree) : Option NodeRecord := do
  match ← t.record? NodeRecord.fieldNames with
  | [nid, uuid, type, title, status, created, changed, fields] =>
    return {
      id := ← Tree.required? Tree.uint64? nid
      uuid := ← Tree.required? uuidOfTree? uuid
      bundle := ← Tree.required? Tree.string? type
      title := ← Tree.defaulted? "" Tree.string? title
      published := ← Tree.defaulted? true Tree.bool? status
      created := ← Tree.defaulted? 0 Tree.int64? created
      changed := ← Tree.defaulted? none (Tree.nullable? Tree.int64?) changed
      fields := ← Tree.defaulted? [] fieldMapOfTree? fields }
  | _ => none

def TermRecord.fieldNames : List String :=
  ["tid", "uuid", "vid", "name", "description", "weight", "parent", "changed", "fields"]

def TermRecord.ofTree? (t : Tree) : Option TermRecord := do
  match ← t.record? TermRecord.fieldNames with
  | [tid, uuid, vid, name, description, weight, parent, changed, fields] =>
    return {
      id := ← Tree.required? Tree.uint64? tid
      uuid := ← Tree.required? uuidOfTree? uuid
      vocabulary := ← Tree.required? Tree.string? vid
      name := ← Tree.required? Tree.string? name
      description := ← Tree.defaulted? "" Tree.string? description
      weight := ← Tree.defaulted? 0 Tree.int64? weight
      parent := ← Tree.defaulted? none (Tree.nullable? Tree.uint64?) parent
      changed := ← Tree.defaulted? 0 Tree.int64? changed
      fields := ← Tree.defaulted? [] fieldMapOfTree? fields }
  | _ => none

def FileRecord.ofTree? (t : Tree) : Option FileRecord := do
  match ← t.record? ["fid", "uri"] with
  | [fid, uri] =>
    return ⟨← Tree.required? Tree.uint64? fid, ← Tree.required? Tree.string? uri⟩
  | _ => none

def AliasRecord.ofTree? (t : Tree) : Option AliasRecord := do
  match ← t.record? ["source", "alias"] with
  | [source, name] =>
    return ⟨← Tree.required? Tree.string? source, ← Tree.required? Tree.string? name⟩
  | _ => none

/-- The schemas of content types and of vocabularies. -/
def bundlesOfTree? (t : Tree) : Option (List (String × Schema) × List (String × Schema)) := do
  match ← t.record? ["node", "taxonomy_term"] with
  | [node, term] =>
    return (← Tree.defaulted? [] bundleMapOfTree? node, ← Tree.defaulted? [] bundleMapOfTree? term)
  | _ => none

namespace Dump

def fieldNames : List String := ["bundles", "nodes", "terms", "files", "aliases", "image_styles"]

def ofTree? (t : Tree) : Option Dump := do
  match ← t.record? fieldNames with
  | [bundles, nodes, terms, files, aliases, imageStyles] =>
    let (nodeBundles, termBundles) ← Tree.defaulted? ([], []) bundlesOfTree? bundles
    return {
      nodeBundles, termBundles
      nodes := ← Tree.defaulted? [] (Tree.list? NodeRecord.ofTree?) nodes
      terms := ← Tree.defaulted? [] (Tree.list? TermRecord.ofTree?) terms
      files := ← Tree.defaulted? [] (Tree.list? FileRecord.ofTree?) files
      aliases := ← Tree.defaulted? [] (Tree.list? AliasRecord.ofTree?) aliases
      imageStyles :=
        ← Tree.defaulted? none (Tree.nullable? (Tree.list? Tree.string?)) imageStyles }
  | _ => none

def ofText? (text : String) : Option Dump := (Parser.parse? text.toList).bind ofTree?

end Dump
end ContentProjection
