import ActorLinks.Manifest.Load
import ActorLinks.Proofs.File.Disk
import ActorLinks.Proofs.Record.Restored

/-! # Configurations read back

A configuration that was stored is loaded again. What cannot be stored is an indent that has no
place in a signed number of 64 bits, and nothing is stored then.
-/
namespace ActorLinks.Config

open Record

section Restored

instance : IsRestored UInt64 where
  ne_null _ := rfl
  decode_restored f n _ := by
    have hsame : f.restored (encode n) = .int n.toNat := by cases f <;> rfl
    have hrange : (0 ≤ (n.toNat : Int) && (n.toNat : Int).toNat < UInt64.size) = true := by
      simp [n.toNat_lt_size]
    rw [hsame]
    show (if _ then _ else _) = _
    rw [if_pos hrange, Int.toNat_natCast, UInt64.ofNat_toNat]

instance : IsRestored Output where
  ne_null _ := rfl
  decode_restored f o h := by
    show (f.reading.fields? _ (f.restored (.table _))).bind _ = _
    rw [fields?_restored (by simp) h, Option.bind_some]
    rw [defaulted_stored h rfl, defaulted_stored h rfl, defaulted_stored h rfl,
      defaulted_stored h rfl]
    rfl

instance : IsAccepted Logging where
  accepts f l := by
    refine Format.accepts_table (by simp) ?_
    simp [IsAccepted.accepts]

instance : IsRestored Logging where
  ne_null _ := rfl
  decode_restored f l h := by
    show (f.reading.fields? _ (f.restored (.table _))).bind _ = _
    rw [fields?_restored (by simp) h, Option.bind_some]
    rw [defaulted_stored h rfl]
    rfl

instance : IsRestored Config where
  ne_null _ := rfl
  decode_restored f c h := by
    show (f.reading.fields? _ (f.restored (.table _))).bind _ = _
    rw [fields?_restored (by simp) h, Option.bind_some]
    rw [defaulted_stored h rfl, defaulted_stored h rfl]
    rfl

end Restored

/-- The widest indent that is written. -/
def indentLimit : Nat := Nat.pow 2 63 - 1

section Texts
variable {c : Config}

theorem inRange_indent_iff (n : UInt64) :
    Toml.inRange n.toNat = true ↔ n.toNat ≤ indentLimit := by
  have hmin : Int64.minValue.toInt = -2 ^ 63 := by decide
  have hmax : Int64.maxValue.toInt = 2 ^ 63 - 1 := by decide
  have hlimit : indentLimit = 2 ^ 63 - 1 := rfl
  simp only [Toml.inRange, hmin, hmax, hlimit, Bool.and_eq_true, decide_eq_true_eq]
  omega

theorem accepts_of_indent (h : c.output.indent.toNat ≤ indentLimit) :
    Format.toml.Accepts (encode c) := by
  have hindent : Format.toml.Accepts (encode c.output.indent) :=
    .flat (.int ((inRange_indent_iff _).mpr h))
  have houtput : Format.toml.Accepts (encode c.output) := by
    refine Format.accepts_table (by simp) ?_
    simp [IsAccepted.accepts, hindent]
  refine Format.accepts_table (by simp) ?_
  simp [IsAccepted.accepts, houtput]

theorem write?_encode (c : Config) :
    Toml.write? (encode c) = if Toml.inRange c.output.indent.toNat then some
      (Toml.Document.ofFields [("output", encode c.output), ("logging", encode c.logging)]).text
    else none := by
  have hwritable : Toml.areFieldsWritable
      [("output", encode c.output), ("logging", encode c.logging)]
        = Toml.inRange c.output.indent.toNat := by
    simp [Toml.areFieldsWritable, Toml.isWritable, encode]
  show (if _ then _ else _) = _
  rw [hwritable]

/-- A configuration with an indent that is too wide has no text. -/
theorem text_eq_error (h : indentLimit < c.output.indent.toNat) :
    c.text = .error .unwritableToml := by
  have hrange : ¬ Toml.inRange c.output.indent.toNat = true := by
    rw [inRange_indent_iff]
    omega
  have hwrite : Format.toml.write? (encode c) = none := by
    rw [Format.write?, write?_encode, if_neg hrange]
  rw [Config.text, Format.print, hwrite]
  rfl

/-- Any other configuration has a text, from which it is read. -/
theorem exists_text (h : c.output.indent.toNat ≤ indentLimit) :
    ∃ text, c.text = .ok text ∧ parse text = .ok c := by
  obtain ⟨text, hwrite⟩ : ∃ text, Format.toml.write? (encode c) = some text := by
    rw [Format.write?, write?_encode, if_pos ((inRange_indent_iff _).mpr h)]
    exact ⟨_, rfl⟩
  have hnesting : Format.toml.nesting (encode c) ≤ Format.toml.depthLimit := by
    show 1 ≤ Toml.depthLimit
    decide
  refine ⟨text, ?_, Format.parse_of_write? (accepts_of_indent h) hnesting hwrite⟩
  rw [Config.text, Format.print, hwrite]

end Texts

/-- The disk after an attempt to store a configuration. -/
def diskAfter (c : Config) (path : String) (d : Disk) : Disk :=
  match c.store path d with
  | .ok d' => d'
  | .error _ => d

/-- A configuration is stored unless its indent is too wide, and is what is loaded next. If it is
too wide, the failure is one of serialization and the disk is as before. -/
theorem load_after_store {d : Disk} {path : String} (h : d.IsWritable path) (c : Config) :
    ((∃ detail, c.store path d = .error (.serialization detail)) ↔
      indentLimit < c.output.indent.toNat) ∧
    (indentLimit < c.output.indent.toNat → c.diskAfter path d = d) ∧
    (c.output.indent.toNat ≤ indentLimit → c.store path d = .ok (c.diskAfter path d) ∧
      load ((c.diskAfter path d).tree? path) = .ok c) := by
  by_cases hindent : indentLimit < c.output.indent.toNat
  · have hstore : c.store path d = .error .unwritableToml := by
      rw [store, text_eq_error hindent]
      rfl
    refine ⟨⟨fun _ => hindent, fun _ => ⟨_, hstore⟩⟩, fun _ => ?_, fun hle => by omega⟩
    rw [diskAfter, hstore]
  · obtain ⟨text, htext, hparse⟩ := exists_text (c := c) (by omega)
    obtain ⟨d', hwrite, hfound⟩ := h.exists_write text
    have hstore : c.store path d = .ok d' := by
      rw [store, htext]
      simp only [bind, Except.bind, hwrite]
      rfl
    have hafter : c.diskAfter path d = d' := by rw [diskAfter, hstore]
    refine ⟨⟨fun ⟨detail, hfails⟩ => ?_, fun h => absurd h hindent⟩, fun h => absurd h hindent,
      fun _ => ⟨by rw [hafter, hstore], ?_⟩⟩
    · rw [hstore] at hfails
      cases hfails
    · rw [hafter, hfound, load, FileTree.text?_ofText]
      exact hparse

/-- A disk with a configuration file that cannot be read. -/
def malformedDisk : Disk := ⟨.directory [("linkgen.toml", .ofText "[output\n")], []⟩

theorem isWritable_malformedDisk : malformedDisk.IsWritable "linkgen.toml" := ⟨"", _, rfl⟩

theorem load_after_store_sample : malformedDisk.IsWritable "linkgen.toml" ∧
    (∃ detail, store ⟨{ indent := 9223372036854775808 }, {}⟩ "linkgen.toml" malformedDisk
      = .error (.serialization detail)) ∧
    load ((diskAfter ⟨{ defaultNamespace := "\"'''\n" }, {}⟩ "linkgen.toml" malformedDisk).tree?
      "linkgen.toml") = .ok ⟨{ defaultNamespace := "\"'''\n" }, {}⟩ :=
  ⟨isWritable_malformedDisk, (load_after_store isWritable_malformedDisk _).1.mpr (by decide),
    ((load_after_store isWritable_malformedDisk _).2.2 (by decide)).2⟩

end ActorLinks.Config
