import CloudProfiler.Convert.Terminate

/-!
# CloudProfiler.Convert.Files

What a call of the converter leaves in the file system.  A compressed log is
decompressed to the file with `b` in its name and that is converted to the one
with `a`; a binary log is converted; an ASCII log is left alone.

* `logBytes` — the file of a channel, by its format;
* `run_convertLogFileToAscii` — the lines of the records are in the ASCII file
  afterwards.
-/

namespace CloudProfiler

/-! ## names -/

section Names

variable {ip : Ipv4} {pid tid ch_nr : Int} {f g : LogFormat} {ch_msg : List Char}

/-- The name of the log with the letter of another format. -/
theorem replaceLetter_logFileName :
    replaceLetter (logFileName ip pid tid ch_nr f ch_msg) (nameStem ip pid tid ch_nr).length
      (formatToStr g) = logFileName ip pid tid ch_nr g ch_msg := by
  have hname (f : LogFormat) : logFileName ip pid tid ch_nr f ch_msg =
      (nameStem ip pid tid ch_nr ++ [':']) ++ ([f.letter] ++
        (':' :: (nameMsg ch_msg ++ lit ".txt"))) := by
    simp [logFileName, toList_formatToStr]
  have hstem : (nameStem ip pid tid ch_nr ++ [':']).length =
      (nameStem ip pid tid ch_nr).length + 1 := by
    simp
  have hdrop : (logFileName ip pid tid ch_nr f ch_msg).drop
      ((nameStem ip pid tid ch_nr).length + 2) = ':' :: (nameMsg ch_msg ++ lit ".txt") := by
    rw [hname, ← List.append_assoc]
    exact List.drop_left' (by simp)
  rw [replaceLetter, hdrop, hname f, List.take_left' hstem, toList_formatToStr, hname g,
    List.append_assoc]

end Names

/-! ## one conversion -/

section Run

variable {un : Unsquash} {sq : Squash} {mem : Conversion → Nat → UInt8} {path : List Char}
  {fs : FileSystem} {idx : Nat} {codec : String} {file : List UInt8}

theorem FileSystem.save_save (fs : FileSystem) (path : List Char) (bs bs' : List UInt8) :
    (fs.save path bs).save path bs' = fs.save path bs' := by
  unfold FileSystem.save
  by_cases hw : fs.writable path = true
  · simp [hw]
  · simp [hw]

/-- The file can be used: opened for reading and for writing, and read to its
end. -/
structure FileSystem.Usable (fs : FileSystem) (path : List Char) : Prop where
  readable : fs.readable path = true
  writable : fs.writable path = true
  breaks : fs.breaks path = none

/-- What was written can be read. -/
theorem FileSystem.openIn_save {p : List Char} {bs : List UInt8} (h : fs.Usable p) :
    (fs.save p bs).openIn p = some ⟨bs, true⟩ := by
  obtain ⟨hr, -, hb⟩ := fs.flags_save p bs
  rw [FileSystem.openIn, hr, if_pos h.readable, FileSystem.content_save, if_pos ⟨rfl, h.writable⟩,
    hb, h.breaks]
  rfl

/-- The output is opened anew before the loop. -/
theorem Decompress.opened_eq {s : Decompress} (h : s.logToWrite = .opened) :
    ({ s with logToWrite := .opened } : Decompress) = s := by
  rw [← h]

/-- The conversion `decompress` writes what the function does. -/
theorem run_decompress
    (hw : fs.writable (Conversion.output path (.decompress idx codec)) = true)
    (hfile : fs.openIn (replaceLetter path idx codec) = some ⟨file, true⟩) :
    Conversion.run (fun _ => un) mem (max 1) path fs (.decompress idx codec) =
      (decompress un codec (some file) (mem (.decompress idx codec)) (max 1 file.length)).map
        fun bs => fs.save (Conversion.output path (.decompress idx codec)) bs := by
  rw [← decompressCalls_const, decompressCalls, Option.map_map]
  simp only [Conversion.run, Conversion.input, hfile, FileSystem.openOut, hw, if_true,
    FileSystem.save_save, Option.elim_some]
  rw [Decompress.opened_eq rfl]
  rfl

/-- So does the conversion `convertBinToASCII`. -/
theorem run_convertBinToASCII
    (hw : fs.writable (Conversion.output path (.convertBinToASCII idx)) = true)
    (hfile : fs.openIn (replaceLetter path idx (formatToStr .binary)) = some ⟨file, true⟩) :
    Conversion.run (fun _ => un) mem (max 1) path fs (.convertBinToASCII idx) =
      (convertBinToASCII (some file) (mem (.convertBinToASCII idx)) (max 1 file.length)).map
        fun bs => fs.save (Conversion.output path (.convertBinToASCII idx)) bs := by
  rw [convertBinToASCII, Option.map_map]
  simp only [Conversion.run, Conversion.input, hfile, FileSystem.openOut, hw, if_true,
    FileSystem.save_save, Option.map_map, Option.elim_some]
  rfl

/-- With as many iterations as the file has bytes a binary log is
converted. -/
theorem convertBinToASCII_bound (ds : List LogData) (mem : Nat → UInt8) {n : Nat}
    (hn : (ds.flatMap LogData.image).length / 40 < n) :
    convertBinToASCII (some (ds.flatMap LogData.image)) mem n =
      some (ds.flatMap fun d => writeInAscii d.tuple d.ts) := by
  obtain ⟨k, hk⟩ := convertBinToASCII_images ds (by decide : ([] : List UInt8).length < 40) mem
  rw [List.append_nil] at hk
  obtain ⟨t, ht⟩ := Option.isSome_iff_exists.mp
    (toAsciiBody_isSome (s := .start (.opened (some (ds.flatMap LogData.image))) mem) rfl)
  have hend := hk (max k n) (Nat.le_max_left k n)
  rw [convertBinToASCII, loop_mono ht (Nat.le_trans hn (Nat.le_max_right k n))] at hend
  rw [convertBinToASCII, loop_mono ht hn, hend]

/-- So is a compressed one decompressed. -/
theorem decompress_bound {f : LogFormat} (hun : un.Inverts sq) (hf : f = .zstd ∨ f = .lzo1x)
    {blocks : List (List LogData)} (hfits : ∀ ds ∈ blocks, Fits sq f ds) (mem : Nat → UInt8)
    {n : Nat} (hn : blocks.length < n) :
    decompress un (formatToStr f)
        (some (blocks.flatMap fun ds => sizePrefixed (packedImage sq f ds))) mem n =
      some (blocks.flatten.flatMap LogData.image) := by
  obtain ⟨s, hs, hover, hw⟩ := decompress_ends hun hf blocks hfits
    (Decompress.start_sized
      (.opened (some (blocks.flatMap fun ds => sizePrefixed (packedImage sq f ds)))) mem) rfl
  obtain ⟨k, hk⟩ := hs.loop
  have hpacked : ∀ b ∈ blocks.map (packedImage sq f), b.length ≤ convBufferSize := by
    intro b hb
    obtain ⟨ds, hds, rfl⟩ := List.mem_map.mp hb
    obtain ⟨img, himg, hlen⟩ := (hfits ds hds).image
    rwa [packedImage, himg]
  have hnil : Stops [] true := ⟨.inl rfl, fun _ => Nat.zero_le _⟩
  obtain ⟨t, ht, hover'⟩ := decompressCall_loop (fun _ => un) (formatToStr f) (i := 0) hpacked rfl hnil
    (Decompress.start_sized
      (.opened (some (blocks.flatMap fun ds => sizePrefixed (packedImage sq f ds)))) mem).toInSized
    (by rw [List.append_nil, List.flatMap_map]; rfl)
  rw [List.length_map] at ht
  have hwritten : ∀ {s : Decompress}, s.overrun = false → s.written = some s.logToWrite :=
    fun h => if_neg (by rw [h]; exact Bool.false_ne_true)
  have hcalls (m : Nat) (hm : n ≤ m) : decompress un (formatToStr f)
      (some (blocks.flatMap fun ds => sizePrefixed (packedImage sq f ds))) mem m =
        some t.2.logToWrite.close.content := by
    rw [← decompressCalls_const, decompressCalls, loop_mono ht (Nat.le_trans hn hm),
      Option.bind_some, hwritten (hover'.trans (Decompress.start_overrun _ _))]
    rfl
  have hend := hcalls (max k n) (Nat.le_max_right k n)
  rw [decompress, hk _ (Nat.le_max_left k n), Option.bind_some,
    hwritten (hover.trans (Decompress.start_overrun _ _)), Option.map_some] at hend
  rw [hcalls n (Nat.le_refl n), ← hend, hw]
  rfl

end Run

/-! ## a call -/

/-- The file of a channel whose blocks hold the records `blocks`, by the
format of the channel; the converter has room for what it decompresses. -/
inductive LogBytes (sq : Squash) (blocks : List (List LogData)) : LogFormat → List UInt8 → Prop
  | ascii : LogBytes sq blocks .ascii (blocks.flatten.flatMap fun d => writeInAscii d.tuple d.ts)
  | binary : LogBytes sq blocks .binary (blocks.flatten.flatMap LogData.image)
  | compressed {f : LogFormat} (hf : f = .zstd ∨ f = .lzo1x)
      (hfits : ∀ ds ∈ blocks, Fits sq f ds) :
      LogBytes sq blocks f (blocks.flatMap fun ds => sizePrefixed (packedImage sq f ds))

section Call

variable {un : Unsquash} {sq : Squash} {mem : Conversion → Nat → UInt8} {fs : FileSystem}
  {ip : Ipv4} {pid tid ch_nr : Int} {f : LogFormat} {ch_msg : List Char} {file : List UInt8}
  {blocks : List (List LogData)}

/-- The names of a log under its different formats can be used. -/
def Usable (fs : FileSystem) (name : LogFormat → List Char) : Prop := ∀ f, fs.Usable (name f)

theorem Usable.save {name : LogFormat → List Char} (h : Usable fs name) (path : List Char)
    (bs : List UInt8) : Usable (fs.save path bs) name := fun f => by
  obtain ⟨hr, hw, hb⟩ := fs.flags_save path bs
  exact ⟨hr ▸ (h f).readable, hw ▸ (h f).writable, hb ▸ (h f).breaks⟩

/-- The binary log is converted to the ASCII log. -/
theorem run_binary (h : Usable fs fun f => logFileName ip pid tid ch_nr f ch_msg)
    {ds : List LogData}
    (hfile : fs.openIn (logFileName ip pid tid ch_nr .binary ch_msg) =
      some ⟨ds.flatMap LogData.image, true⟩) :
    Conversion.run (fun _ => un) mem (max 1) (logFileName ip pid tid ch_nr f ch_msg) fs
        (.convertBinToASCII (nameStem ip pid tid ch_nr).length) =
      some (fs.save (logFileName ip pid tid ch_nr .ascii ch_msg)
        (ds.flatMap fun d => writeInAscii d.tuple d.ts)) := by
  have hout : Conversion.output (logFileName ip pid tid ch_nr f ch_msg)
      (.convertBinToASCII (nameStem ip pid tid ch_nr).length) =
        logFileName ip pid tid ch_nr .ascii ch_msg := by
    rw [Conversion.output, replaceLetter_logFileName, replaceLetter_logFileName]
  rw [run_convertBinToASCII (by rw [hout]; exact (h .ascii).writable)
    (by rw [replaceLetter_logFileName]; exact hfile), convertBinToASCII_bound ds _ (by omega), hout]
  rfl

/-- The compressed log is decompressed to the binary log. -/
theorem run_compressed (hun : un.Inverts sq) (hf : f = .zstd ∨ f = .lzo1x)
    (h : Usable fs fun f => logFileName ip pid tid ch_nr f ch_msg)
    (hfits : ∀ ds ∈ blocks, Fits sq f ds)
    (hfile : fs.openIn (logFileName ip pid tid ch_nr f ch_msg) =
      some ⟨blocks.flatMap fun ds => sizePrefixed (packedImage sq f ds), true⟩) :
    Conversion.run (fun _ => un) mem (max 1) (logFileName ip pid tid ch_nr f ch_msg) fs
        (.decompress (nameStem ip pid tid ch_nr).length (formatToStr f)) =
      some (fs.save (logFileName ip pid tid ch_nr .binary ch_msg)
        (blocks.flatten.flatMap LogData.image)) := by
  have hout : Conversion.output (logFileName ip pid tid ch_nr f ch_msg)
      (.decompress (nameStem ip pid tid ch_nr).length (formatToStr f)) =
        logFileName ip pid tid ch_nr .binary ch_msg := by
    rw [Conversion.output, replaceLetter_logFileName, replaceLetter_logFileName]
  have hbound : blocks.length <
      max 1 (blocks.flatMap fun ds => sizePrefixed (packedImage sq f ds)).length := by
    have hle := length_flatMap_sizePrefixed (blocks.map (packedImage sq f))
    rw [List.length_map, List.flatMap_map] at hle
    omega
  rw [run_decompress (by rw [hout]; exact (h .binary).writable)
    (by rw [replaceLetter_logFileName]; exact hfile), decompress_bound hun hf hfits _ hbound, hout]
  rfl

/-- **A log is converted to ASCII**, whatever its format, if its message does
not mislead the converter. -/
theorem run_convertLogFileToAscii (hun : un.Inverts sq) (hlog : LogBytes sq blocks f file)
    (hmsg : ∀ g ∈ misleading f, ¬ Tagged g ch_msg)
    (h : Usable fs fun f => logFileName ip pid tid ch_nr f ch_msg)
    (hfile : fs.openIn (logFileName ip pid tid ch_nr f ch_msg) = some ⟨file, true⟩) :
    ∃ fs', runConversions (fun _ => un) mem (max 1) (logFileName ip pid tid ch_nr f ch_msg) fs
        (convertLogFileToAscii (logFileName ip pid tid ch_nr f ch_msg)) = some fs' ∧
      fs'.openIn (logFileName ip pid tid ch_nr .ascii ch_msg) =
        some ⟨blocks.flatten.flatMap fun d => writeInAscii d.tuple d.ts, true⟩ := by
  have hrec : Recognises f (nameStem ip pid tid ch_nr).length
      (logFileName ip pid tid ch_nr f ch_msg) :=
    (recognises_iff_of_findTag findTag_self).mpr fun g hg => by
      refine (findTag_eq_none ?_).mpr (hmsg g hg)
      rintro rfl
      revert hg
      cases g <;> decide
  cases hlog with
  | ascii =>
      rw [hrec.toAscii]
      exact ⟨fs, rfl, hfile⟩
  | binary =>
      rw [hrec.toAscii, runConversions, List.foldlM_cons, run_binary h hfile]
      exact ⟨_, rfl, FileSystem.openIn_save (h .ascii)⟩
  | compressed hf hfits =>
      have hconv : convertLogFileToAscii (logFileName ip pid tid ch_nr f ch_msg) =
          [.decompress (nameStem ip pid tid ch_nr).length (formatToStr f),
            .convertBinToASCII (nameStem ip pid tid ch_nr).length] := by
        obtain rfl | rfl := hf
        · exact hrec.toAscii
        · exact hrec.toAscii
      have h' := h.save (logFileName ip pid tid ch_nr .binary ch_msg)
        (blocks.flatten.flatMap LogData.image)
      rw [hconv, runConversions, List.foldlM_cons, run_compressed hun hf h hfits hfile]
      have hbin : (fs.save (logFileName ip pid tid ch_nr .binary ch_msg)
          (blocks.flatten.flatMap LogData.image)).openIn
            (logFileName ip pid tid ch_nr .binary ch_msg) =
          some ⟨blocks.flatten.flatMap LogData.image, true⟩ :=
        FileSystem.openIn_save (h .binary)
      refine ⟨_, ?_, FileSystem.openIn_save (h' .ascii)⟩
      rw [Option.bind_eq_bind, Option.bind_some, List.foldlM_cons, run_binary h' hbin]
      rfl

end Call

end CloudProfiler
