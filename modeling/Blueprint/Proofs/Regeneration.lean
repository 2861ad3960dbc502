import Blueprint.Proofs.Interface.Names
import Blueprint.Proofs.Merge
import Blueprint.Proofs.OutputTypes

/-!
# Making a document again

A document that is made anew knows nothing that people add by hand, and each of its names occurs
once (`Fresh`). Two laws follow. Making the document of a blueprint again from its own result gives
the same document, since a merge of a merge adds nothing. And what people added to a first document
is still there after any number of merges into documents made anew, whatever variables and outputs
come and go in between; `CuratedKept` is the invariant of such a run.
-/

namespace Blueprint.Metadata

/-- A document that says nothing that people add by hand, and says everything once. -/
structure Fresh (new : Metadata) : Prop where
  inputNames : (new.spec.interfaces.inputs.map (·.name)).Nodup
  outputNames : (new.spec.interfaces.outputs.map (·.name)).Nodup
  inputConnections : ∀ v ∈ new.spec.interfaces.inputs, v.connections = []
  outputConnections : ∀ o ∈ new.spec.interfaces.outputs, o.connections = []
  title : new.spec.info.title = ""
  labels : new.resource.labels = .empty
  source : new.spec.info.source = none

/-- Outputs that only differ in their types from others have the same names. -/
private theorem names_of_untyped {outputs typed : List Output}
    (same : typed.map Output.untyped = outputs.map Output.untyped) :
    typed.map (·.name) = outputs.map (·.name) := by
  have names (list : List Output) : (list.map Output.untyped).map (·.name) = list.map (·.name) := by
    simp [Output.untyped, Function.comp_def]
  rw [← names typed, same, names outputs]

private theorem connections_of_untyped {outputs typed : List Output}
    (same : typed.map Output.untyped = outputs.map Output.untyped)
    (none : ∀ o ∈ outputs, o.connections = []) : ∀ o ∈ typed, o.connections = [] := by
  intro o member
  have inBoth : o.untyped ∈ outputs.map Output.untyped := same ▸ List.mem_map_of_mem member
  obtain ⟨before, inOutputs, equal⟩ := List.mem_map.1 inBoth
  have unconnected := none before inOutputs
  calc o.connections = o.untyped.connections := rfl
    _ = before.untyped.connections := by rw [equal]
    _ = [] := unconnected

/-- The document that is made of a blueprint without an earlier one is fresh. -/
private theorem fresh_of_describe {config : Config} {fs : FileSystem} {states : Option StateSource}
    {path root : String} {new : Metadata}
    (made : describe config fs states path root = .ok new) : new.Fresh := by
  simp only [describe, bind_eq_ok_iff, pure_eq_ok_iff] at made
  obtain ⟨_, _, files, _, interface, read, outputs, typed, _, _, rfl⟩ := made
  have names := Interface.readAfter_of_ofFiles read
  -- Outputs get their types after they were read, which leaves names and connections alone.
  have same := untyped_typedOutputs typed
  refine ⟨names.inputNames.distinct, ?_, names.inputConnections, ?_, rfl, rfl, rfl⟩
  · simpa [names_of_untyped same] using names.outputNames.distinct
  · exact connections_of_untyped same names.outputConnections

/-- Information that was kept is kept again. -/
private theorem keep_keep_self (new existing : Info) :
    new.keep (new.keep existing) = new.keep existing := by
  have source : new.source.or (new.source.or existing.source) = new.source.or existing.source := by
    cases new.source <;> rfl
  simp only [Info.keep, keepText_again, fillText_again, source]

/-- Merging the result of a merge into the same document adds nothing. -/
private theorem merge_merge_self {new : Metadata} (existing : Metadata)
    (inputNames : (new.spec.interfaces.inputs.map (·.name)).Nodup)
    (outputNames : (new.spec.interfaces.outputs.map (·.name)).Nodup) :
    new.merge (new.merge existing) = new.merge existing := by
  rw [merge_eq new (new.merge existing), merge_eq new existing]
  simp only [keepText_again, keep_keep_self,
    Interface.takeOver_takeOver_self existing.spec.interfaces inputNames outputNames]
  split <;> rfl

/-- Making a document again from its own result, with nothing else changed, gives that document. -/
theorem generate_generate {config : Config} {fs : FileSystem} {states : Option StateSource}
    {path root : String} {existing made : Metadata}
    (first : generate config fs states path root (some existing) = .ok made) :
    generate config fs states path root (some made) = .ok made := by
  obtain ⟨new, described, rfl⟩ := map_eq_ok_iff.1 first
  have fresh := fresh_of_describe described
  -- The second run describes the blueprint as the first one did, so both merge the same document.
  simp only [generate, described, Except.map]
  rw [merge_merge_self existing fresh.inputNames fresh.outputNames]

/-- A blueprint with a variable and an output. -/
def zoneFiles : FileSystem where
  root := .directory
    [("bp", .directory [("main.tf", .file "variable \"zone\" {}\noutput \"id\" {}\n".toUTF8)])]
  workingDirectory := []

/-- A document of that blueprint that people wrote; it says twice what there is about the
variable. -/
def zoneNotes : Metadata where
  resource := { name := "zones" }
  spec :=
    { info := { title := "Zones" }
      interfaces :=
        { inputs := [{ name := "zone", connections := [{}] }, { name := "zone" }]
          outputs := [{ name := "id", type := some (.string "string") }] } }

/-- The document that is made of both. -/
def zoneDocument : Metadata :=
  { zoneNotes with
    spec.interfaces.inputs :=
      [{ name := "zone", required := true, order := some 0, connections := [{}] }] }

theorem generate_generate_zone :
    generate {} zoneFiles none "bp" "bp" (some zoneNotes) = .ok zoneDocument ∧
    generate {} zoneFiles none "bp" "bp" (some zoneDocument) = .ok zoneDocument := by
  have first : generate {} zoneFiles none "bp" "bp" (some zoneNotes) = .ok zoneDocument :=
    eq_ok_of_toOption (by decide +kernel)
  exact ⟨first, generate_generate first⟩

/-- The document after a run of regenerations: each document of the list is made anew and takes over
what the document before it has. -/
def regenerate (d : Metadata) (news : List Metadata) : Metadata :=
  news.foldl (fun last new => new.merge last) d

/-- What the document `last` still has of a document `d` after it was merged into the documents
`news`, one after the other. -/
structure CuratedKept (d : Metadata) (news : List Metadata) (last : Metadata) : Prop where
  title : last.spec.info.title = d.spec.info.title
  labels : last.resource.labels = d.resource.labels
  source : last.spec.info.source = d.spec.info.source
  name : d.resource.name ≠ "" → last.resource.name = d.resource.name
  /-- A variable that never went away has the connections of the first one of its name. -/
  inputs : ∀ {name : String} {v : Variable}, d.spec.interfaces.variableNamed? name = some v →
    (∀ new ∈ news, (new.spec.interfaces.variableNamed? name).isSome) →
    ∃ w, last.spec.interfaces.variableNamed? name = some w ∧ w.connections = v.connections
  /-- An output that never went away has the connections of the first one of its name, and the type
  that was found for it last. -/
  outputs : ∀ {name : String} {o : Output}, d.spec.interfaces.outputNamed? name = some o →
    (∀ new ∈ news, (new.spec.interfaces.outputNamed? name).isSome) →
    ∃ p, last.spec.interfaces.outputNamed? name = some p ∧ p.connections = o.connections ∧
      p.type = (news.reverse.findSome? fun new =>
        (new.spec.interfaces.outputNamed? name).bind (·.type)).or o.type
  /-- After a merge each name occurs once. -/
  distinct : news ≠ [] → (last.spec.interfaces.inputs.map (·.name)).Nodup ∧
    (last.spec.interfaces.outputs.map (·.name)).Nodup

/-- Before any merge everything is there. -/
private theorem curatedKept_refl (d : Metadata) : CuratedKept d [] d where
  title := rfl
  labels := rfl
  source := rfl
  name := fun _ => rfl
  inputs := fun {_ v} found _ => ⟨v, found, rfl⟩
  outputs := fun {_ o} found _ => ⟨o, found, rfl, rfl⟩
  distinct := fun nonempty => absurd rfl nonempty

/-- What is still there is still there after one more merge. -/
private theorem CuratedKept.step {d last new : Metadata} {news : List Metadata}
    (kept : CuratedKept d news last) (fresh : new.Fresh) :
    CuratedKept d (news ++ [new]) (new.merge last) := by
  rw [merge_eq]
  -- The new document has nothing of its own to put in place of what people added.
  constructor
  case title => simpa [Info.keep, fresh.title] using kept.title
  case labels => simpa [fresh.labels, SortedMap.isEmpty, SortedMap.empty] using kept.labels
  case source => simpa [Info.keep, fresh.source] using kept.source
  case name =>
    intro named
    have before := kept.name named
    have nonempty : last.resource.name.isEmpty = false := by
      simpa [before, String.isEmpty_iff] using named
    simpa [keepText, nonempty] using before
  case inputs =>
    intro name v found everywhere
    simp only [List.mem_append, List.mem_singleton, or_imp, forall_and, forall_eq] at everywhere
    -- `w` is the variable before the merge, `u` the one that takes over its connections.
    obtain ⟨w, inLast, same⟩ := kept.inputs found everywhere.1
    obtain ⟨u, inNew⟩ := Option.isSome_iff_exists.1 everywhere.2
    have bare : u.connections = [] := fresh.inputConnections u (List.mem_of_find?_eq_some inNew)
    have named : u.name = name := Interface.name_of_variableNamed? inNew
    refine ⟨u.takeOver last.spec.interfaces, ?_, ?_⟩
    · simp [Interface.variableNamed?_takeOver, inNew]
    · simp [Variable.takeOver, named, inLast, bare, same]
  case outputs =>
    intro name o found everywhere
    simp only [List.mem_append, List.mem_singleton, or_imp, forall_and, forall_eq] at everywhere
    obtain ⟨p, inLast, same, type⟩ := kept.outputs found everywhere.1
    obtain ⟨u, inNew⟩ := Option.isSome_iff_exists.1 everywhere.2
    have bare : u.connections = [] := fresh.outputConnections u (List.mem_of_find?_eq_some inNew)
    have named : u.name = name := Interface.name_of_outputNamed? inNew
    refine ⟨u.takeOver last.spec.interfaces, ?_, ?_, ?_⟩
    · simp [Interface.outputNamed?_takeOver, inNew]
    · simp [Output.takeOver, named, inLast, bare, same]
    · -- The newest document comes first where the latest type is looked for.
      cases typed : u.type <;> simp [Output.takeOver, named, inLast, inNew, type, typed]
  case distinct =>
    intro _
    simpa using And.intro fresh.inputNames fresh.outputNames

private theorem CuratedKept.run {d last : Metadata} {before news : List Metadata}
    (kept : CuratedKept d before last) (fresh : ∀ new ∈ news, new.Fresh) :
    CuratedKept d (before ++ news) (last.regenerate news) := by
  -- The documents that were merged already are part of the invariant, so they vary.
  induction news generalizing before last with
  | nil => simpa [regenerate] using kept
  | cons new rest ih =>
    have next := kept.step (fresh new List.mem_cons_self)
    have later := ih next fun other member => fresh other (List.mem_cons_of_mem new member)
    simpa [regenerate] using later

/-- What people wrote into a document survives any number of regenerations. -/
theorem curatedKept_regenerate (d : Metadata) (news : List Metadata)
    (fresh : ∀ new ∈ news, new.Fresh) : CuratedKept d news (d.regenerate news) := by
  simpa using (curatedKept_refl d).run fresh

/-- A document made anew of a blueprint with a variable and an output that may have a type. -/
def zoneFresh (type : Option Value) : Metadata where
  spec := { interfaces := { inputs := [{ name := "zone" }], outputs := [{ name := "id", type }] } }

theorem curatedKept_regenerate_zone :
    (∀ new ∈ [zoneFresh (some (.string "number")), zoneFresh none], new.Fresh) ∧
    CuratedKept zoneNotes [zoneFresh (some (.string "number")), zoneFresh none]
      (zoneNotes.regenerate [zoneFresh (some (.string "number")), zoneFresh none]) := by
  have fresh (type : Option Value) : (zoneFresh type).Fresh := by
    constructor <;> simp [zoneFresh]
  have all : ∀ new ∈ [zoneFresh (some (.string "number")), zoneFresh none], new.Fresh := by
    simp [fresh]
  exact ⟨all, curatedKept_regenerate zoneNotes _ all⟩

end Blueprint.Metadata
