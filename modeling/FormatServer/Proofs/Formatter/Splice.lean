import FormatServer.Proofs.Formatter.Outcome

/-!
A run whose formatter does its work: the formatter is given exactly the selected text, and what it leaves
becomes the new text of one edit, character for character.
-/

namespace FormatServer

open ScriptStep

/-- **Formatting replaces exactly what was selected.** When the temporary file can be written and the
formatter can be started (so no word of its command holds a null byte), puts out no line that is too long,
ends in time with exit code zero and leaves the bytes of a text, then one process was started, on a file with
the bytes of the selected text, and the one edit puts the text that was left in the place of the requested
range, or of the whole document. -/
theorem format_splices (c : RunContext) (r : FormatRequest) (d : Disk) (document : Document)
    (p : Path) (d' : Disk) (newText : String)
    (hopen : c.store.find? r.uri = some document)
    (hpath : temporaryPath c.directory r.settings c.token r.uri = .ok p)
    (hnull : '\x00' ∉ p.chars)
    (hwrite : d.write p (Text.Utf8.encode (selected c.encoding document.text r.range)) = .ok d')
    (hcommand : r.settings.command ≠ [])
    (hwords : ∀ word ∈ r.settings.command, '\x00' ∉ word.toList)
    (haccepted : c.script.refusal = none)
    (hlines : ∀ s, withinLimit (outputOn s c.script.steps) = true)
    (htime : endsBefore (timeLimit r.settings) c.script.steps = true)
    (hexit : exitAfter 0 c.script.steps = 0)
    (hleft : entryAfter
        (some (.file (Text.Utf8.encode (selected c.encoding document.text r.range))))
        c.script.steps = some (.file (Text.Utf8.encode newText.toList))) :
    (format c r d).result =
        .edits [⟨match r.range with
          | some range => range
          | none => ⟨⟨0, 0⟩, endPosition c.encoding document.text.toList⟩, newText⟩] ∧
      spawns (format c r d).events =
        [(r.settings.command ++ [p.toString],
          Text.Utf8.encode (match r.range with
            | some range => slice document.text.toList
                (offsetAt c.encoding document.text.toList range.start)
                (offsetAt c.encoding document.text.toList range.stop)
            | none => document.text.toList))] := by
  have hwritten : Written c r d document p d' := ⟨⟨hopen, hpath⟩, hnull, hwrite⟩
  have hfinished : Finished c r d document p d' :=
    ⟨⟨hwritten, hcommand, hwords, haccepted⟩, hlines, htime⟩
  have htext := Text.Utf8.decode_encode newText.toList
  obtain ⟨hresult, hspawns⟩ := (ends_iff c r d _ _).mp (.edits hfinished hexit hleft htext)
  rw [hresult, hspawns, String.ofList_toList, given, editRange, commandLine]
  cases r.range <;> exact ⟨rfl, rfl⟩

/-- A range that ends past its line selects up to the line break, also after a character of two code
units. -/
theorem format_splices_astral :
    let uri := "file:///a.src"
    let c : RunContext := {
      store := ⟨[(Uri.decode uri, ⟨uri, "text", 1, "a😀b\r\nc"⟩)]⟩, encoding := .utf16,
      directory := .ofString "/tmp", token := tokenOf 0, pid := 4242,
      script := { steps := [.output .stderr [0x6F, 0x6B, 0x0A], .sleep 1,
        .change (.write (Text.Utf8.encode "x\r\n".toList))] } }
    let r : FormatRequest :=
      { uri, range := some ⟨⟨0, 3⟩, ⟨0, 99⟩⟩, settings := { command := ["fmt", "-i"] } }
    let d : Disk := ⟨[([['t', 'm', 'p']], .directory)]⟩
    (format c r d).result = .edits [⟨⟨⟨0, 3⟩, ⟨0, 99⟩⟩, "x\r\n"⟩] ∧
      spawns (format c r d).events =
        [(["fmt", "-i", "/tmp/fmtbridge-00000000-0000-4000-8000-000000000000.src"], [0x62])] := by
  intro uri c r d
  have hopen : c.store.find? r.uri = some ⟨uri, "text", 1, "a😀b\r\nc"⟩ := by
    simp [c, r, DocumentStore.find?]
  have h := format_splices c r d ⟨uri, "text", 1, "a😀b\r\nc"⟩
    (.ofString "/tmp/fmtbridge-00000000-0000-4000-8000-000000000000.src")
    ⟨([['t', 'm', 'p'], "fmtbridge-00000000-0000-4000-8000-000000000000.src".toList], .file [0x62]) ::
      d.entries⟩ "x\r\n" hopen (by decide +kernel) (by decide +kernel) (by decide +kernel)
    (by decide +kernel) (by decide +kernel) rfl (fun s => by cases s <;> decide +kernel) (by decide +kernel)
    (by decide +kernel) (by decide +kernel)
  exact ⟨h.1, h.2.trans (by decide +kernel)⟩

end FormatServer
