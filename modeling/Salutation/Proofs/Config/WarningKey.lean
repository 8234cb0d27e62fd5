/-
The key that a warning names.

The path of an unknown key is joined by points and then cut again at its last point.  Where the
key itself holds no point this gives back the table and the key, because the point in front of
the key is then the last one.  A key that holds a point is cut in two, and the warning takes
what stands behind the point for the key and all the rest for the table.

So the cut loses nothing but the place of the cut: two paths are told apart exactly if they are
different when joined, and a quoted key of the root can be taken for a key of a table.
-/
import Salutation.Proofs.Config.KeyLine
import Salutation.Proofs.Config.Unknown

namespace Salutation.Config

open Toml

/-! ### The last point

Cutting at the last point and joining again gives the text back, so the cut itself loses nothing.
What is lost is lost before it, when a path with points in its keys is joined.
-/

/-- A text holds no point, or it is cut in front of what follows its last one. -/
theorem splitAtLastPoint_cases (text : List Char) :
    ('.' ∉ text ∧ splitAtLastPoint text = (none, text)) ∨
      ∃ front last, text = front ++ '.' :: last ∧ '.' ∉ last ∧
        splitAtLastPoint text = (some front, last) := by
  by_cases hpoint : '.' ∈ text
  · obtain ⟨last, front, hreverse, hlast⟩ :=
      List.eq_append_cons_of_mem (List.mem_reverse.mpr hpoint)
    have htext : text = front.reverse ++ '.' :: last.reverse := by
      have hback := congrArg List.reverse hreverse
      simpa using hback
    have hfree : '.' ∉ last.reverse := fun hmem => hlast (List.mem_reverse.mp hmem)
    refine Or.inr ⟨front.reverse, last.reverse, htext, hfree, ?_⟩
    rw [htext, splitAtLastPoint_append _ hfree]
  · exact Or.inl ⟨hpoint, by simp [splitAtLastPoint, hpoint]⟩

/-- Nothing is lost by the cut. -/
theorem splitAtLastPoint_injective {a b : List Char}
    (h : splitAtLastPoint a = splitAtLastPoint b) : a = b := by
  rcases splitAtLastPoint_cases a with ⟨-, ha⟩ | ⟨front, last, rfl, -, ha⟩
  · rcases splitAtLastPoint_cases b with ⟨-, hb⟩ | ⟨front', last', -, -, hb⟩
    · rw [ha, hb] at h
      exact congrArg Prod.snd h
    · rw [ha, hb] at h
      cases congrArg Prod.fst h
  · rcases splitAtLastPoint_cases b with ⟨-, hb⟩ | ⟨front', last', rfl, -, hb⟩
    · rw [ha, hb] at h
      cases congrArg Prod.fst h
    · rw [ha, hb] at h
      cases h
      rfl

/-- What a path is taken for depends on the joined path, and on nothing less. -/
theorem locate_eq_iff {path other : List String} :
    locate path = locate other ↔ String.intercalate "." path = String.intercalate "." other := by
  have hsplit : ∀ path, splitAtLastPoint (String.intercalate "." path).toList =
      ((locate path).1.map String.toList, (locate path).2.toList) := by
    intro path
    simp [locate, Option.map_map, Function.comp_def]
  constructor
  · intro h
    refine String.toList_inj.mp (splitAtLastPoint_injective ?_)
    rw [hsplit, hsplit, h]
  · intro h
    unfold locate
    rw [h]

/-- A path with a key that holds no point is taken for what it is. -/
theorem locate_of_not_mem {table? : Option String} {key : String} (h : '.' ∉ key.toList) :
    locate (table?.toList ++ [key]) = (table?, key) := by
  have hpath := locate_path (table?.map String.toList) h
  simpa [Option.map_map, Function.comp_def] using hpath

/-- A path with a key that holds a point is cut inside the key. -/
theorem locate_of_point {table? : Option String} {front last : String}
    (h : '.' ∉ last.toList) :
    locate (table?.toList ++ [front ++ "." ++ last]) =
      (some (String.intercalate "." (table?.toList ++ [front])), last) := by
  have hjoined : (String.intercalate "." (table?.toList ++ [front ++ "." ++ last])).toList =
      (String.intercalate "." (table?.toList ++ [front])).toList ++ '.' :: last.toList := by
    cases table? <;> simp
  unfold locate
  rw [hjoined, splitAtLastPoint_append _ h]
  simp only [Option.map_some, String.ofList_toList]

/-- The key of a warning is the key of the path exactly if that holds no point. -/
theorem locate_key_iff {table? : Option String} {key : String} :
    (locate (table?.toList ++ [key])).2 = key ↔ '.' ∉ key.toList := by
  constructor
  · intro h
    rcases splitAtLastPoint_cases key.toList with ⟨hfree, -⟩ | ⟨front, last, hkey, hlast, -⟩
    · exact hfree
    · obtain rfl : key = String.ofList front ++ "." ++ String.ofList last := by
        rw [← String.toList_inj, hkey]
        simp
      rw [locate_of_point (by rwa [String.toList_ofList])] at h
      have hlength := congrArg String.length h
      simp at hlength
  · intro h
    rw [locate_of_not_mem h]

/-! ### Warnings -/

/-- What a warning about a key of a table has to say: the key, and the suggestion for it. -/
structure Warning.Names (warning : Warning) (table? : Option String) (key : String) : Prop where
  key_eq : warning.key = key
  suggestion_eq : warning.suggestion = suggestion? table? key

theorem warn_names {path : List String} {table? : Option String} {key : String}
    (h : locate path = (table?, key)) (file : Path) (lines : List (List Char)) :
    (warn file lines path).Names table? key := by
  constructor <;> simp only [warn, h]

/-- **A warning names the key and its table exactly as far as the key holds no point.**  Every
unknown key has its warning.  One without a point is named as it is, with the suggestion for
the table that it stands in.  Of one with a point only what follows its last point is named,
with the suggestion for all that stands before it; and two unknown keys are taken for the same
key exactly if their paths are the same when joined. -/
theorem warning_names_key {files : Files} {file : Path} {content : List Char} {table : Table}
    {config : Config} {unknown : List (List String)}
    (hfile : files.readText file = .ok content) (hdocument : document content = .ok table)
    (htable : ofTable table = .ok (config, unknown)) :
    load files file = .ok (config, unknown.map (warn file (Text.lines content))) ∧
      unknownKeys table ⊆ unknown ∧
      (∀ path ∈ unknown, ∃ (table? : Option String) (key : String), path = table?.toList ++ [key]) ∧
      (∀ (table? : Option String) (key : String), table?.toList ++ [key] ∈ unknown →
        let warning := warn file (Text.lines content) (table?.toList ++ [key])
        (warning.key = key ↔ '.' ∉ key.toList) ∧
        ('.' ∉ key.toList → warning.Names table? key) ∧
        ∀ front last, key = front ++ "." ++ last → '.' ∉ last.toList →
          warning.Names (some (String.intercalate "." (table?.toList ++ [front]))) last) ∧
      ∀ path ∈ unknown, ∀ other ∈ unknown,
        (locate path = locate other ↔
          String.intercalate "." path = String.intercalate "." other) ∧
        ((∀ key ∈ path.getLast?.toList ++ other.getLast?.toList, '.' ∉ key.toList) →
          locate path = locate other → path = other) := by
  have hpath : ∀ path ∈ unknown, ∃ (table? : Option String) (key : String),
      path = table?.toList ++ [key] := by
    intro path hmem
    obtain ⟨table?, key, rfl⟩ := unknown_path htable hmem
    exact ⟨table?.map String.ofList, String.ofList key, rfl⟩
  refine ⟨by rw [load_of_document hfile hdocument, htable], putTables_reports htable, hpath,
    fun table? key _ => ?_, fun path hmem other hother => ?_⟩
  · refine ⟨locate_key_iff, fun hfree => ?_, fun front last hkey hlast => ?_⟩
    · exact warn_names (locate_of_not_mem hfree) file _
    · rw [hkey]
      exact warn_names (locate_of_point hlast) file _
  · refine ⟨locate_eq_iff, fun hfree hsame => ?_⟩
    obtain ⟨table?, key, rfl⟩ := hpath path hmem
    obtain ⟨table?', key', rfl⟩ := hpath other hother
    rw [locate_of_not_mem (hfree key (by simp)), locate_of_not_mem (hfree key' (by simp))] at hsame
    cases hsame
    rfl

/-- A key is named with the table that it stands in, and a quoted one without its front. -/
theorem warning_names_key_of_table :
    let content := "\"output.name\" = 1\n[greeting]\nnam = 2\n".toList
    ∃ table, document content = .ok table ∧
      unknownKeys table = [["output.name"], ["greeting", "nam"]] ∧
      (warn (Path.ofString "greeter.toml") (Text.lines content) ["greeting", "nam"]).Names
        (some "greeting") "nam" ∧
      (warn (Path.ofString "greeter.toml") (Text.lines content) ["output.name"]).Names
        (some "output") "name" := by
  intro content
  let files : Files := fun _ => .file (Utf8.encode content)
  have hfile : files.readText (Path.ofString "greeter.toml") = .ok content := by decide +kernel
  obtain ⟨table, hdocument, hunknown, htable⟩ : ∃ table ∈ (document content).toOption,
      unknownKeys table = [["output.name"], ["greeting", "nam"]] ∧
      (({}, [["output.name"], ["greeting", "nam"]]) : Config × List (List String)) ∈
        (ofTable table).toOption := by decide +kernel
  have hdocument : document content = .ok table := ok_of_mem_toOption hdocument
  have htable := ok_of_mem_toOption htable
  obtain ⟨-, -, -, hnames, -⟩ := warning_names_key hfile hdocument htable
  refine ⟨table, hdocument, hunknown, ?_, ?_⟩
  · exact (hnames (some "greeting") "nam" (by simp)).2.1 (by decide)
  · exact (hnames none "output.name" (by simp)).2.2 "output" "name" (by decide) (by decide)

/-- Two unknown keys of a document, at different paths, are taken for the same key, and the
warning for one of them has neither its key nor the suggestion for it. -/
def IsConfused (content : List Char) (table? : Option String) (key : String)
    (other : List String) : Prop :=
  ∃ table ∈ (document content).toOption, ∃ result ∈ (ofTable table).toOption,
    let path := table?.toList ++ [key]
    let warning := warn (Path.ofString "greeter.toml") (Text.lines content) path
    path ∈ result.2 ∧ other ∈ result.2 ∧ path ≠ other ∧ locate path = locate other ∧
      warning.key ≠ key ∧ warning.suggestion ≠ suggestion? table? key

instance (content : List Char) (table? : Option String) (key : String) (other : List String) :
    Decidable (IsConfused content table? key other) :=
  inferInstanceAs (Decidable (∃ _ ∈ _, _))

/-- A quoted key of the root is taken for the key of a table, with what is suggested for that. -/
theorem warning_key_confused :
    IsConfused "\"output.name\" = 1\n[output]\nname = 2\n".toList none "output.name"
      ["output", "name"] := by
  decide +kernel

end Salutation.Config
