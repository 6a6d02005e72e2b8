import Mathlib.Data.List.Forall2
import RailSpec.Proofs.Settings
import RailSpec.Proofs.TypeSpec.Declaration
import RailSpec.Report.Files

/-!
What settings do to documents. There is one bare generation for a text, whatever the settings are;
they only put a header in front of each of its contents and an extension behind each of its names.
-/

namespace RailSpec

namespace TypeSpec

/-- The line for a namespace and an empty line behind it. -/
def header : Option String → String
  | some name => "namespace " ++ name ++ ";\n\n"
  | none => ""

/-- A text that does not begin as a header does. -/
def IsHeadless (text : String) : Prop :=
  ¬ "namespace ".toList <+: text.toList

/-- A document, its name without an extension and its content without a header, in a frame. -/
def Frame.around (frame : Frame) (document : Document) : Document :=
  { document with
    name := document.name ++ frame.fileExtension
    content := header frame.declared ++ document.content }

/-- The document for an enum without a frame. -/
def bareEnum (enum : EnumType) : Document :=
  ⟨enum.className, renderEnum enum ++ "\n", none, some enum.name⟩

/-- The document for a table without a frame. -/
def bareModel (table : Table) : Except Number.DigitFault Document :=
  (renderModel table).map fun text => ⟨table.className, text ++ "\n", some table.name, none⟩

variable (frame : Frame)

theorem content_eq (declaration : String) :
    frame.content declaration = header frame.declared ++ (declaration ++ "\n") := by
  rw [Frame.content]
  cases frame.declared with
  | none => exact String.empty_append.symm
  | some name => simp [Text.unlines, Text.joined, header, ← String.toList_inj]

theorem enumDocument_eq (enum : EnumType) :
    frame.enumDocument enum = frame.around (bareEnum enum) := by
  rw [Frame.enumDocument, content_eq]
  rfl

theorem modelDocument_eq (table : Table) :
    frame.modelDocument table = (bareModel table).map frame.around := by
  rw [Frame.modelDocument, bareModel]
  cases renderModel table with
  | error fault => rfl
  | ok text =>
    change Except.ok (Document.mk _ _ _ _) = _
    rw [content_eq]
    rfl

/-- A declaration opens with its keyword, so none can be taken for a header. -/
theorem declaration_headless {keyword name : String} {members : List String} {first : Char}
    (opens : keyword.toList.head? = some first) (different : first ≠ 'n') :
    IsHeadless (declaration keyword name members ++ "\n") := by
  obtain ⟨letters, spelled⟩ := List.head?_eq_some_iff.mp opens
  have front : ∃ rest, (declaration keyword name members ++ "\n").toList = first :: rest := by
    rw [declaration, String.toList_append, Text.unlines_concat, List.flatMap_cons]
    simp only [String.toList_append, spelled, List.cons_append]
    exact ⟨_, rfl⟩
  obtain ⟨rest, front⟩ := front
  rw [IsHeadless, front]
  rintro ⟨behind, same⟩
  exact different (List.cons.inj same).1.symm

theorem bareEnum_headless (enum : EnumType) : IsHeadless (bareEnum enum).content :=
  declaration_headless rfl (by decide)

theorem bareModel_headless {table : Table} {document : Document}
    (done : bareModel table = .ok document) : IsHeadless document.content := by
  obtain ⟨text, rendered, rfl⟩ := map_ok done
  obtain ⟨lines, -, rfl⟩ := map_ok rendered
  exact declaration_headless rfl (by decide)

/-- Two documents that differ just in what their settings put around them: behind the header of
either, if it has one, stands the same text, and in front of either extension the same stem. -/
structure Document.Reframed (settings other : Settings) (document another : Document) : Prop where
  sameTable : document.tableName = another.tableName
  sameEnum : document.enumName = another.enumName
  sameStem : ∃ stem, document.name = stem ++ settings.fileExtension ∧
    another.name = stem ++ other.fileExtension
  sameText : ∃ text, IsHeadless text ∧
    document.content = header settings.namespaceName ++ text ∧
    another.content = header other.namespaceName ++ text

variable {settings other : Settings}

theorem declared_frame (valid : settings.IsValid) :
    settings.frame.declared = settings.namespaceName := by
  change settings.namespaceName.filter (· ≠ "") = _
  cases given : settings.namespaceName with
  | none => rfl
  | some name => exact if_pos (decide_eq_true (valid.named name given).1)

theorem reframed_around (valid : settings.IsValid) (otherValid : other.IsValid)
    {document : Document} (headless : IsHeadless document.content) :
    (settings.frame.around document).Reframed settings other (other.frame.around document) where
  sameTable := rfl
  sameEnum := rfl
  sameStem := ⟨document.name, rfl, rfl⟩
  sameText := by
    refine ⟨document.content, headless, ?_, ?_⟩
    · rw [← declared_frame valid]
      rfl
    · rw [← declared_frame otherValid]
      rfl

end TypeSpec

namespace Generation

open TypeSpec (Frame Document IsHeadless bareModel bareEnum)

/-- The documents for tables without a frame. -/
def bareModels : List Table → Except Number.DigitFault (List Document)
  | [] => .ok []
  | table :: rest => do
    let document ← bareModel table
    let documents ← bareModels rest
    return document :: documents

theorem modelDocuments_eq (frame : Frame) (tables : List Table) :
    modelDocuments frame tables = (bareModels tables).map (List.map frame.around) := by
  induction tables with
  | nil => rfl
  | cons table rest ih =>
    rw [modelDocuments, bareModels, TypeSpec.modelDocument_eq, ih]
    cases bareModel table with
    | error fault => rfl
    | ok document => cases bareModels rest <;> rfl

/-- A generation of which the documents have no frames, in a frame. -/
def around (frame : Frame) (generation : Generation) : Generation :=
  { generation with
    models := generation.models.map frame.around
    enums := generation.enums.map frame.around }

/-- Everything in a schema without a frame. -/
def bareOfSchema (schema : Schema) : Except Number.DigitFault Generation :=
  (bareModels schema.tables).map fun models =>
    ⟨models, schema.enums.map bareEnum, schema.tables, schema.diagnostics⟩

theorem ofSchema_eq (frame : Frame) (schema : Schema) :
    ofSchema frame schema = (bareOfSchema schema).map (around frame) := by
  have enums : schema.enums.map frame.enumDocument =
      (schema.enums.map bareEnum).map frame.around := by
    rw [List.map_map]
    exact List.map_congr_left fun enum _ => TypeSpec.enumDocument_eq frame enum
  rw [ofSchema, modelDocuments_eq, bareOfSchema, enums]
  cases bareModels schema.tables <;> rfl

theorem bareModels_headless {tables : List Table} {documents : List Document}
    (done : bareModels tables = .ok documents) :
    ∀ document ∈ documents, IsHeadless document.content := by
  induction tables generalizing documents with
  | nil =>
    cases done
    exact List.forall_mem_nil _
  | cons table rest ih =>
    obtain ⟨first, rendered, more⟩ := bind_ok done
    obtain ⟨later, others, more⟩ := bind_ok more
    cases more
    exact List.forall_mem_cons.mpr ⟨TypeSpec.bareModel_headless rendered, ih others⟩

theorem bareOfSchema_headless {schema : Schema} {generation : Generation}
    (done : bareOfSchema schema = .ok generation) :
    ∀ document ∈ generation.documents, IsHeadless document.content := by
  obtain ⟨models, rendered, rfl⟩ := map_ok done
  intro document member
  rcases List.mem_append.mp member with inEnums | inModels
  · obtain ⟨enum, -, rfl⟩ := List.mem_map.mp inEnums
    exact TypeSpec.bareEnum_headless enum
  · exact bareModels_headless rendered document inModels

/-- Two generations that differ just in what their settings put around each document. -/
structure Reframed (settings other : Settings) (generation another : Generation) : Prop where
  sameTables : generation.tables = another.tables
  sameDiagnostics : generation.diagnostics = another.diagnostics
  models : List.Forall₂ (Document.Reframed settings other) generation.models another.models
  enums : List.Forall₂ (Document.Reframed settings other) generation.enums another.enums

theorem reframed_around {settings other : Settings} (valid : settings.IsValid)
    (otherValid : other.IsValid) {generation : Generation}
    (headless : ∀ document ∈ generation.documents, IsHeadless document.content) :
    (generation.around settings.frame).Reframed settings other
      (generation.around other.frame) where
  sameTables := rfl
  sameDiagnostics := rfl
  models := by
    refine List.forall₂_map_left_iff.mpr (List.forall₂_map_right_iff.mpr ?_)
    refine List.forall₂_same.mpr fun document member => ?_
    exact TypeSpec.reframed_around valid otherValid
      (headless document (List.mem_append_right _ member))
  enums := by
    refine List.forall₂_map_left_iff.mpr (List.forall₂_map_right_iff.mpr ?_)
    refine List.forall₂_same.mpr fun document member => ?_
    exact TypeSpec.reframed_around valid otherValid
      (headless document (List.mem_append_left _ member))

end Generation

namespace Generator

open Settings (trimmedName)
open TypeSpec (IsHeadless)

/-- The documents for a text without a frame. -/
def bare (reader : Reader) (text : String) : Except Reader.Fault Generation := do
  let schema ← reader text
  (Generation.bareOfSchema schema).mapError fun fault => .declaration (.digits fault)

variable {settings other : Settings}

theorem generate_eq (reader : Reader) (settings : Settings) (text : String) :
    generate ⟨reader, settings⟩ text =
      (bare reader text).map (Generation.around settings.frame) := by
  dsimp only [generate, bare]
  cases reader text with
  | error fault => rfl
  | ok schema =>
    change Except.mapError _ (Generation.ofSchema settings.frame schema) =
      (Except.mapError _ (Generation.bareOfSchema schema)).map _
    rw [Generation.ofSchema_eq]
    cases Generation.bareOfSchema schema <;> rfl

theorem bare_headless {reader : Reader} {text : String} {generation : Generation}
    (done : bare reader text = .ok generation) :
    ∀ document ∈ generation.documents, IsHeadless document.content := by
  obtain ⟨schema, -, rendered⟩ := bind_ok done
  exact Generation.bareOfSchema_headless (mapError_ok rendered)

theorem generateNamed_some (valid : settings.IsValid) (reader : Reader) (name text : String) :
    generateNamed ⟨reader, settings⟩ (some name) text =
      (generate ⟨reader, { settings with namespaceName := trimmedName (some name) }⟩
        text).mapError .reader := by
  have accepted : namedSettings ⟨reader, settings⟩ (some name) =
      .ok { settings with namespaceName := trimmedName (some name) } :=
    valid.withNamespace_eq name
  rw [generateNamed, accepted]
  rfl

/-- Valid settings only frame what is generated. Under others the same text has the same tables,
the same diagnostics and the same documents but for what stands around them, whatever the command
and its time limit, and a namespace for one generation is a namespace that is assigned first. -/
theorem generate_reframed (valid : settings.IsValid) (otherValid : other.IsValid)
    (reader : Reader) (text : String) :
    (∀ generation, generate ⟨reader, settings⟩ text = .ok generation →
      ∃ another, generate ⟨reader, other⟩ text = .ok another ∧
        generation.Reframed settings other another) ∧
    (∀ command timeLimit,
      generate ⟨reader, { settings with command := command, timeLimit := timeLimit }⟩ text =
        generate ⟨reader, settings⟩ text) ∧
    generateNamed ⟨reader, settings⟩ none text =
      (generate ⟨reader, settings⟩ text).mapError .reader ∧
    ∀ name,
      settings.assign "namespace" (.text name) =
        .ok { settings with namespaceName := trimmedName (some name) } ∧
      (Text.isBlankText name = true → trimmedName (some name) = none) ∧
      generateNamed ⟨reader, settings⟩ (some name) text =
        (generate ⟨reader, { settings with namespaceName := trimmedName (some name) }⟩
          text).mapError .reader := by
  refine ⟨?_, fun _ _ => rfl, rfl, fun name => ⟨rfl, Settings.trimmedName_blank, ?_⟩⟩
  · intro generation done
    rw [generate_eq] at done
    obtain ⟨bare, found, rfl⟩ := map_ok done
    refine ⟨bare.around other.frame, ?_, ?_⟩
    · rw [generate_eq, found]
      rfl
    · exact Generation.reframed_around valid otherValid (bare_headless found)
  · exact generateNamed_some valid reader name text

/-- A reader that finds the same table and enum in every text. -/
def shop : Reader := fun _ => .ok {
  tables := [Schema.namedTable "items" [Schema.linkedColumn "label" "string" []]]
  enums := [Schema.namedEnum "state" ["new"]]
  diagnostics := ⟨["no keys"], []⟩ }

def namespaced : Settings := { namespaceName := some "Shop" }

def plain : Settings := ⟨none, some ["ruby"], none, ".typespec"⟩

theorem namespaced_valid : namespaced.IsValid where
  named := by
    intro name member
    cases member
    exact ⟨by decide, by decide⟩
  runs := Settings.initial_valid.runs
  timed := Settings.initial_valid.timed
  extended := Settings.initial_valid.extended

theorem plain_valid : plain.IsValid where
  named := nofun
  runs := by
    intro words member
    cases member
    exact List.cons_ne_nil _ _
  timed := nofun
  extended := by decide

/-- What each of them makes of the enum. -/
theorem generate_reframed_shop :
    ∃ generation another,
      generate ⟨shop, namespaced⟩ "" = .ok generation ∧ generate ⟨shop, plain⟩ "" = .ok another ∧
      generation.enums = [⟨"State.tsp",
        "namespace Shop;\n\nenum State \x7b\n  NEW: \"new\";\n\x7d\n", none, some "state"⟩] ∧
      another.enums = [⟨"State.typespec",
        "enum State \x7b\n  NEW: \"new\";\n\x7d\n", none, some "state"⟩] ∧
      generation.Reframed namespaced plain another ∧
      generateNamed ⟨shop, namespaced⟩ (some " \n") "" =
        (generate ⟨shop, { namespaced with namespaceName := none }⟩ "").mapError .reader := by
  obtain ⟨reframed, -, -, named⟩ := generate_reframed namespaced_valid plain_valid shop ""
  obtain ⟨generation, done, shown⟩ : ∃ generation, generate ⟨shop, namespaced⟩ "" = .ok generation ∧
      generation.enums = [⟨"State.tsp",
        "namespace Shop;\n\nenum State \x7b\n  NEW: \"new\";\n\x7d\n", none, some "state"⟩] :=
    ⟨_, by rfl, by rfl⟩
  obtain ⟨another, alsoDone, same⟩ := reframed generation done
  have alsoShown : another.enums = [⟨"State.typespec",
      "enum State \x7b\n  NEW: \"new\";\n\x7d\n", none, some "state"⟩] := by
    cases alsoDone
    rfl
  exact ⟨generation, another, done, alsoDone, shown, alsoShown, same, (named " \n").2.2⟩

end Generator

end RailSpec
