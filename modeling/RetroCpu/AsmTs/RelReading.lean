import RetroCpu.AsmTs.RelReader

/-!
# What the reader makes of an object file

The areas, the symbols and the chunks come back in the order of the writer.
-/

namespace RetroCpu
namespace AsmTs

open Js Checked

section Index

theorem indexByName_get {names : List String} {n : String} {i : Nat}
    (h : (indexByName names).get n = some i) : names[i]? = some n := by
  have hfold : ∀ (l : List (String × Nat)) (m : JsMap Nat),
      (∀ e ∈ l, names[e.2]? = some e.1) → (∀ k j, m.get k = some j → names[j]? = some k) →
      ∀ k j, (l.foldl (fun (m : JsMap Nat) entry => m.set entry.1 entry.2) m).get k = some j →
        names[j]? = some k := by
    intro l
    induction l with
    | nil => exact fun m _ hm => hm
    | cons e l ih =>
        intro m hl hm
        refine ih _ (fun e' he' => hl e' (by simp [he'])) ?_
        intro k j hget
        rw [JsMap.get_set] at hget
        split at hget
        · rename_i hk
          cases hget
          rw [← hk]
          exact hl e (by simp)
        · exact hm k j hget
  refine hfold names.zipIdx .empty ?_ ?_ n i h
  · intro e he
    exact List.mem_zipIdx_iff_getElem?.mp he
  · intro k j hget
    cases hget

theorem indexByName_isSome {names : List String} {n : String} (hn : n ∈ names) :
    ((indexByName names).get n).isSome = true := by
  have hfold : ∀ (l : List (String × Nat)) (m : JsMap Nat),
      (n ∈ l.map (·.1) ∨ (m.get n).isSome = true) →
      ((l.foldl (fun (m : JsMap Nat) entry => m.set entry.1 entry.2) m).get n).isSome = true := by
    intro l
    induction l with
    | nil =>
        rintro m (h | h)
        · cases h
        · exact h
    | cons e l ih =>
        intro m h
        refine ih _ ?_
        by_cases he : e.1 = n
        · right
          rw [JsMap.get_set, if_pos he]
          rfl
        · rcases h with h | h
          · rw [List.map_cons, List.mem_cons] at h
            rcases h with h | h
            · exact absurd h.symm he
            · exact .inl h
          · right
            rw [JsMap.get_set, if_neg he]
            exact h
  refine hfold names.zipIdx .empty (.inl ?_)
  obtain ⟨i, hi⟩ := List.mem_iff_getElem?.mp hn
  exact List.mem_map.mpr ⟨(n, i), List.mem_zipIdx_iff_getElem?.mpr hi, rfl⟩

/-- The place of an area among different names. -/
theorem indexByName_append {pre post : List String} {area : String}
    (hnodup : (pre ++ area :: post).Nodup) :
    (indexByName (pre ++ area :: post)).get area = some pre.length := by
  have hsome : ((indexByName (pre ++ area :: post)).get area).isSome = true :=
    indexByName_isSome (by simp)
  obtain ⟨i, hi⟩ := Option.isSome_iff_exists.mp hsome
  have hget := indexByName_get hi
  have hpre : (pre ++ area :: post)[pre.length]? = some area := by simp
  have hlt : i < (pre ++ area :: post).length := by
    by_contra hge
    rw [List.getElem?_eq_none (by omega)] at hget
    cases hget
  rw [hi]
  congr 1
  exact (List.getElem?_inj hlt hnodup).mp (hget.trans hpre.symm)

end Index

section Chunk

variable (result : AssemblyResult) (areaIndex symIndex : JsMap Nat)

/-- The item of a relocation within a chunk. -/
def itemIn (chunk : List EmittedWord) (r : WordDiffReloc) : Option RelocItem :=
  relocItem r (2 + (r.byteAddr - startByte result chunk)) areaIndex symIndex

/-- A chunk as it is read, with the areas that have been read before it. -/
def readChunk (areas : List String) (area : String) (chunk : List EmittedWord) : RelChunk where
  areaName := (areas[(areaIndex.get area).getD 0 % 65536]?).getD
    (firstWord area.toList "size".toList)
  tAddr := startByte result chunk % 65536
  data := (chunkBytes chunk).map .int
  items := ((chunkRelocs result (relocsOf result area) chunk).filterMap
    (itemIn result areaIndex symIndex chunk)).map readItem

variable {result areaIndex symIndex}

theorem mapM_option {α β ε : Type} {f : α → Option β} {g : α → Except ε β}
    (hg : ∀ a b, g a = .ok b → f a = some b) {l : List α} {bs : List β}
    (h : l.mapM g = .ok bs) : l.filterMap f = bs ∧ ∀ a ∈ l, (f a).isSome = true := by
  induction l generalizing bs with
  | nil =>
      obtain rfl := pure_eq_ok.mp h
      simp
  | cons a l ih =>
      rw [List.mapM_cons] at h
      obtain ⟨b, hb, h⟩ := bind_eq_ok.mp h
      obtain ⟨bs', hbs, h⟩ := bind_eq_ok.mp h
      obtain rfl := pure_eq_ok.mp h
      obtain ⟨hfilter, hsome⟩ := ih hbs
      have hfa := hg a b hb
      refine ⟨by rw [List.filterMap_cons_some hfa, hfilter], ?_⟩
      intro a' ha'
      rcases List.mem_cons.mp ha' with rfl | ha'
      · rw [hfa]
        rfl
      · exact hsome a' ha'

theorem chunkItems_eq_ok {area : String} {relocs : List WordDiffReloc} {chunk : List EmittedWord}
    {items : List RelocItem}
    (h : chunkItems result area areaIndex symIndex relocs chunk = .ok items) :
    (chunkRelocs result relocs chunk).filterMap (itemIn result areaIndex symIndex chunk) = items ∧
      ∀ r ∈ chunkRelocs result relocs chunk,
        (itemIn result areaIndex symIndex chunk r).isSome = true := by
  refine mapM_option ?_ h
  intro r item hr
  unfold itemIn
  cases hitem : relocItem r (2 + (r.byteAddr - startByte result chunk)) areaIndex symIndex with
  | none =>
      rw [hitem] at hr
      cases hr
  | some item' =>
      rw [hitem] at hr
      cases hr
      rfl

theorem chunkBytes_range {chunk : List EmittedWord} {v : Int} (h : v ∈ chunkBytes chunk) :
    0 ≤ v ∧ v < 256 := by
  obtain ⟨w, _, hv⟩ := List.mem_flatMap.mp h
  simp only [List.mem_cons, List.not_mem_nil, or_false, land_ff] at hv
  rcases hv with rfl | rfl
  · omega
  · omega

theorem map_chunkBytes (chunk : List EmittedWord) :
    ((chunkBytes chunk).map fun v => Number.int (v % 256)) = (chunkBytes chunk).map .int := by
  refine List.map_congr_left ?_
  intro v hv
  obtain ⟨h0, h1⟩ := chunkBytes_range hv
  rw [Int.emod_eq_of_lt h0 h1]

/-- The state with one more chunk. -/
def addChunk (r : RelReader) (c : RelChunk) : RelReader :=
  { r with parsed := { r.parsed with chunks := r.parsed.chunks ++ [c] } }

/-- A T record and its R record. -/
theorem readRecord_chunk {area : String} {chunk : List EmittedWord} {items : List RelocItem}
    (r : RelReader) (hpending : r.pendingT = none)
    (hcurrent : r.currentArea = firstWord area.toList "size".toList)
    (h : chunkItems result area areaIndex symIndex (relocsOf result area) chunk = .ok items) :
    readRecord (readRecord r (tRecord result chunk))
        (rRecord ((areaIndex.get area).getD 0 : Nat) items) =
      addChunk r (readChunk result areaIndex symIndex r.parsed.areas area chunk) := by
  rw [readRecord_tRecord, readRecord_rRecord _ _ _ rfl, addChunk, readChunk,
    (chunkItems_eq_ok h).1, map_chunkBytes, ← hcurrent, hpending]

/-- The T and R records of the chunks of an area. -/
theorem foldl_chunkRecords {area : String} {cs : List (List EmittedWord)}
    {data : List (List (List Char))} (r : RelReader) (hpending : r.pendingT = none)
    (hcurrent : r.currentArea = firstWord area.toList "size".toList)
    (h : cs.mapM (fun chunk => do
      let items ← chunkItems result area areaIndex symIndex (relocsOf result area) chunk
      return [tRecord result chunk,
        rRecord ((areaIndex.get area).getD 0 : Nat) items]) = .ok data) :
    data.flatten.foldl readRecord r = { r with parsed := { r.parsed with
      chunks := r.parsed.chunks ++
        cs.map (readChunk result areaIndex symIndex r.parsed.areas area) } } := by
  induction cs generalizing r data with
  | nil =>
      obtain rfl := pure_eq_ok.mp h
      simp
  | cons chunk cs ih =>
      rw [List.mapM_cons] at h
      obtain ⟨recs, hrecs, h⟩ := bind_eq_ok.mp h
      obtain ⟨data', hdata, h⟩ := bind_eq_ok.mp h
      obtain rfl := pure_eq_ok.mp h
      obtain ⟨items, hitems, hrecs⟩ := bind_eq_ok.mp hrecs
      obtain rfl := pure_eq_ok.mp hrecs
      rw [List.flatten_cons, List.foldl_append, List.foldl_cons, List.foldl_cons, List.foldl_nil,
        readRecord_chunk r hpending hcurrent hitems, ih (addChunk r _) hpending hcurrent hdata]
      simp only [addChunk, List.map_cons, List.append_assoc, List.singleton_append]

end Chunk

section Areas

variable {result : AssemblyResult} {globals : List GlobalEntry} {infos : JsMap AreaInfo}

/-- The symbols of the S records of an area, as they are read. -/
def readAreaSymbols (result : AssemblyResult) (globals : List GlobalEntry) (area : String) :
    List String :=
  (areaGlobals globals area).map (fun g => firstWord (sdldSymName g.name).toList
      ("Def".toList ++ hex4 (unitsToRelAddr g.value.bits result.byteMode))) ++
    (areaCheckpoints result area).map fun cp => firstWord (checkpointId cp.name cp.serial).toList
      ("Def".toList ++ hex4 (unitsToRelAddr cp.address result.byteMode))

theorem words_def (v : Int) : words isSpace ("Def".toList ++ hex4 v) = ["Def".toList ++ hex4 v] := by
  refine words_of_forall (by simp) ?_
  intro c hc
  rcases List.mem_append.mp hc with hc | hc
  · have key : ∀ c ∈ "Def".toList, isSpace c = false := forall_mem_of_all (by decide)
    exact key c hc
  · exact (hexChar_plain (hexChar_hexPad c hc)).2.2.2.2.2

theorem foldl_sRecords {α : Type} (name : α → String) (state : α → List Char)
    (hstate : ∀ a, words isSpace (state a) = [state a]) (l : List α) (r : RelReader) :
    (l.map fun a => sRecord (name a) (state a)).foldl readRecord r =
      { r with parsed := { r.parsed with symbols := r.parsed.symbols ++
        (l.map fun a => firstWord (name a).toList (state a)) } } := by
  induction l generalizing r with
  | nil => simp
  | cons a l ih =>
      rw [List.map_cons, List.foldl_cons, readRecord_sRecord r (name a) (hstate a), ih]
      simp only [List.map_cons, List.append_assoc, List.singleton_append]

/-- All records of one area. -/
theorem foldl_areaRecords {areaIndex symIndex : JsMap Nat} {area : String}
    {records : List (List Char)} (r : RelReader) (hpending : r.pendingT = none)
    (h : areaRecords result globals infos areaIndex symIndex area = .ok records) :
    records.foldl readRecord r = { r with
      currentArea := firstWord area.toList "size".toList
      parsed := {
        areas := r.parsed.areas ++ [firstWord area.toList "size".toList]
        areaSizes := r.parsed.areaSizes.set (firstWord area.toList "size".toList)
          (readSize (aArgs area (sizeRel result (infos.get area) (wordsOf result area))
            (asxxxxAreaFlags area)))
        symbols := r.parsed.symbols ++ readAreaSymbols result globals area
        chunks := r.parsed.chunks ++ (chunks result (wordsOf result area)).map
          (readChunk result areaIndex symIndex
            (r.parsed.areas ++ [firstWord area.toList "size".toList]) area) } } := by
  obtain ⟨data, hdata, h⟩ := bind_eq_ok.mp h
  obtain rfl := pure_eq_ok.mp h
  rw [List.cons_append, List.foldl_cons, readRecord_aRecord, List.foldl_append, areaSymbols,
    List.foldl_append, foldl_sRecords _ _ (fun _ => words_def _),
    foldl_sRecords _ _ (fun _ => words_def _)]
  refine (foldl_chunkRecords _ ?_ ?_ hdata).trans ?_
  · exact hpending
  · rfl
  · simp only [readAreaSymbols, List.append_assoc]

/-- All areas: `names` is the whole list, of which `post` is still to be read. -/
theorem foldl_areas {names pre post : List String} (hnames : names = pre ++ post)
    (hnodup : names.Nodup) {symIndex : JsMap Nat} {records : List (List (List Char))}
    (r : RelReader) (hpending : r.pendingT = none)
    (hareas : r.parsed.areas = pre.map fun a => firstWord a.toList "size".toList)
    (h : post.mapM (areaRecords result globals infos (indexByName names) symIndex) = .ok records) :
    let areas := names.map fun a => firstWord a.toList "size".toList
    let r' := records.flatten.foldl readRecord r
    r'.pendingT = none ∧ r'.parsed.areas = areas ∧
      r'.parsed.symbols = r.parsed.symbols ++ post.flatMap (readAreaSymbols result globals) ∧
      r'.parsed.chunks = r.parsed.chunks ++ post.flatMap fun area =>
        (chunks result (wordsOf result area)).map
          (readChunk result (indexByName names) symIndex areas area) := by
  induction post generalizing pre r records with
  | nil =>
      obtain rfl := pure_eq_ok.mp h
      rw [List.append_nil] at hnames
      simp [hpending, hareas, hnames]
  | cons area post ih =>
      rw [List.mapM_cons] at h
      obtain ⟨recs, hrecs, h⟩ := bind_eq_ok.mp h
      obtain ⟨records', hrecords, h⟩ := bind_eq_ok.mp h
      obtain rfl := pure_eq_ok.mp h
      have harea := foldl_areaRecords r hpending hrecs
      have hnames' : names = (pre ++ [area]) ++ post := by
        rw [hnames]
        simp
      obtain ⟨hp, ha, hs, hc⟩ := ih hnames' (recs.foldl readRecord r)
        (by rw [harea]; exact hpending) (by rw [harea, hareas]; simp) hrecords
      -- the chunks of the area name an area that has been read
      have hindex : (indexByName names).get area = some pre.length := by
        rw [hnames]
        exact indexByName_append (hnames ▸ hnodup)
      have hchunk : ∀ chunk, readChunk result (indexByName names) symIndex
          (r.parsed.areas ++ [firstWord area.toList "size".toList]) area chunk =
            readChunk result (indexByName names) symIndex
              (names.map fun a => firstWord a.toList "size".toList) area chunk := by
        intro chunk
        have hlt : pre.length % 65536 < pre.length + 1 := by
          have := Nat.mod_le pre.length 65536
          omega
        unfold readChunk
        rw [hindex, hareas]
        have hsplit : names.map (fun a => firstWord a.toList "size".toList) =
            (pre.map (fun a => firstWord a.toList "size".toList) ++
              [firstWord area.toList "size".toList]) ++
                post.map fun a => firstWord a.toList "size".toList := by
          rw [hnames]
          simp
        have hlook : (names.map fun a => firstWord a.toList "size".toList)[pre.length % 65536]? =
            (pre.map (fun a => firstWord a.toList "size".toList) ++
              [firstWord area.toList "size".toList])[pre.length % 65536]? := by
          rw [hsplit]
          exact List.getElem?_append_left (by simpa using hlt)
        rw [Option.getD_some, hlook]
      rw [List.flatten_cons, List.foldl_append]
      refine ⟨hp, ha, ?_, ?_⟩
      · rw [hs, harea, List.flatMap_cons, List.append_assoc]
      · rw [hc, harea, List.flatMap_cons, List.append_assoc,
          List.map_congr_left fun chunk _ => hchunk chunk]

/-- The symbols of the S records, as they are read. -/
def readSymbols (result : AssemblyResult) (globals : List GlobalEntry) (names : List String) :
    List String :=
  absName :: (globals.filter (!·.isDef)).map (fun g =>
      firstWord (sdldSymName g.name).toList "Ref0000".toList) ++
    names.flatMap (readAreaSymbols result globals)

end Areas

section File

variable {localeCompare : String → String → Int} {result : AssemblyResult}
  {moduleName text : String}

/-- What is read back from an object file. -/
theorem parseRelChunks_writeRel {records : List (List Char)}
    (h : relRecords localeCompare result moduleName = .ok records)
    (hnodup : (relAreaNames result (globalEntries localeCompare result)).Nodup)
    (hlines : ∀ l ∈ records, '\n' ∉ l) :
    let globals := globalEntries localeCompare result
    let names := relAreaNames result globals
    let areas := names.map fun a => firstWord a.toList "size".toList
    let symIndex := indexByName (symbolOrder result globals names)
    let p := parseRelChunks (String.ofList (joinLines records))
    p.areas = areas ∧ p.symbols = readSymbols result globals names ∧
      p.chunks = names.flatMap fun area => (chunks result (wordsOf result area)).map
        (readChunk result (indexByName names) symIndex areas area) := by
  intro globals names areas symIndex p
  have hp : p = (records.foldl readRecord {}).parsed := parseRelChunks_joinLines hlines
  obtain ⟨recs, hrecs, h⟩ := bind_eq_ok.mp h
  obtain rfl := pure_eq_ok.mp h
  have hhead : ∀ r : RelReader, readRecord r "XH2".toList = r := by
    intro r
    have : words isSpace "XH2".toList = ["XH2".toList] := by decide
    rw [readRecord, this]
    rfl
  have habs : ∀ r : RelReader, readRecord r (sRecord absName "Def0000".toList) =
      { r with parsed := { r.parsed with symbols := r.parsed.symbols ++ [absName] } } := by
    intro r
    rw [readRecord_sRecord r absName (by decide), firstWord_plain (by decide) (forall_mem_of_all (by decide))]
  have hend : ∀ r : RelReader, readRecord r ['E'] = r := fun _ => rfl
  simp only [List.append_assoc, List.cons_append, List.nil_append, List.foldl_cons, hhead,
    readRecord_h, readRecord_m, habs, List.foldl_append, List.foldl_nil, hend] at hp
  rw [foldl_sRecords (fun g : GlobalEntry => sdldSymName g.name) (fun _ => "Ref0000".toList)
    (fun _ => by decide)] at hp
  let refs := (globals.filter (!·.isDef)).map fun g =>
    firstWord (sdldSymName g.name).toList "Ref0000".toList
  let start : RelReader := { parsed := { symbols := absName :: refs } }
  obtain ⟨_, ha, hs, hc⟩ := foldl_areas (show names = [] ++ names from rfl) hnodup start rfl rfl hrecs
  have hstart : p = (recs.flatten.foldl readRecord start).parsed := hp
  rw [hstart]
  refine ⟨ha, ?_, ?_⟩
  · rw [hs]
    rfl
  · rw [hc]
    rfl

end File

end AsmTs
end RetroCpu
