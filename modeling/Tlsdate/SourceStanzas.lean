import Tlsdate.ConfFile

namespace Tlsdate.SourceStanzas

open Options ConfFile
open ProxyBio (ascii)
open PacProxy (text)

/-- What stands between a `source` and the next `end`, or the end of the file. -/
structure Stanza where
  body : List ConfEntry
  closed : Bool

def within (e : ConfEntry) : Bool := text e.key != "end"

def stanzas : List ConfEntry → List Stanza
  | [] => []
  | e :: es =>
      if e.key = ascii "source" then
        have : (es.dropWhile within).length ≤ es.length := (List.dropWhile_suffix within).length_le
        ⟨es.takeWhile within, !(es.dropWhile within).isEmpty⟩ :: stanzas (es.dropWhile within).tail
      else stanzas es
termination_by es => es.length

def lastValue (key : String) (body : List ConfEntry) : Option (List UInt8) :=
  (body.reverse.find? fun e => text e.key == key).bind ConfEntry.value

def known (e : ConfEntry) : Bool :=
  text e.key == "host" || text e.key == "port" || text e.key == "proxy"

structure Stanza.Complete (st : Stanza) : Prop where
  closed : st.closed = true
  known : ∀ e ∈ st.body, known e = true
  host : (lastValue "host" st.body).isSome = true
  port : (lastValue "port" st.body).isSome = true

def Stanza.source (st : Stanza) (id : Nat) : Source where
  host := text ((lastValue "host" st.body).getD [])
  port := text ((lastValue "port" st.body).getD [])
  proxy := (lastValue "proxy" st.body).map fun url => .text (text url)
  id := id

variable {c c' : Settings} {e : ConfEntry} {es read : List ConfEntry}

theorem lastValue_concat (key : String) (read : List ConfEntry) (e : ConfEntry) :
    lastValue key (read ++ [e]) = if text e.key = key then e.value else lastValue key read := by
  rw [lastValue, List.reverse_append, List.reverse_singleton, List.singleton_append, List.find?_cons]
  split_ifs with h
  · rw [h, beq_self_eq_true]
    rfl
  · rw [beq_eq_false_iff_ne.mpr h]
    rfl

theorem parseSource_eq (c : Settings) (read es : List ConfEntry) :
    parseSource c (lastValue "host" read) (lastValue "port" read) (lastValue "proxy" read) es =
      match (es.takeWhile within).find? (fun e => !known e), es.dropWhile within with
      | some e, _ => .error ("malformed config: '" ++ text e.key ++ "' in source stanza")
      | none, [] => .error "unclosed source stanza"
      | none, _ :: rest =>
          let body := read ++ es.takeWhile within
          (closeSource c (lastValue "host" body) (lastValue "port" body) (lastValue "proxy" body)).map
            fun c => (c, rest) := by
  induction es generalizing read with
  | nil => rfl
  | cons e es ih =>
      have hread := ih (read ++ [e])
      rw [lastValue_concat, lastValue_concat, lastValue_concat, List.append_assoc,
        List.singleton_append] at hread
      rw [parseSource]
      split
      next hkey => simp [within, hkey]
      next hkey => simpa [within, known, hkey] using hread
      next hkey => simpa [within, known, hkey] using hread
      next hkey => simpa [within, known, hkey] using hread
      next hend hhost hport hproxy =>
        have hwithin : within e = true := bne_iff_ne.mpr hend
        have hknown : known e = false := by
          rw [known, beq_eq_false_iff_ne.mpr hhost, beq_eq_false_iff_ne.mpr hport,
            beq_eq_false_iff_ne.mpr hproxy]
          rfl
        simp [hwithin, hknown]

def stanzaOf (es : List ConfEntry) : Stanza :=
  ⟨es.takeWhile within, !(es.dropWhile within).isEmpty⟩

def nextId (c : Settings) : Nat :=
  match c.opts.sources.getLast? with
  | none => 0
  | some s => s.id + 1

theorem stanzas_cons (h : e.key = ascii "source") :
    stanzas (e :: es) = stanzaOf es :: stanzas (es.dropWhile within).tail := by
  rw [stanzas, if_pos h, stanzaOf]

theorem stanzas_other (h : e.key ≠ ascii "source") : stanzas (e :: es) = stanzas es := by
  rw [stanzas, if_neg h]

theorem parseSource_stanza (c : Settings) (es : List ConfEntry) :
    ((stanzaOf es).Complete ∧ parseSource c none none none es =
      .ok ({ c with opts.sources := c.opts.sources ++ [(stanzaOf es).source (nextId c)] },
        (es.dropWhile within).tail)) ∨
    (¬ (stanzaOf es).Complete ∧ ∃ fatal, parseSource c none none none es = .error fatal) := by
  have heq := parseSource_eq c [] es
  rw [List.nil_append] at heq
  change parseSource c none none none es = _ at heq
  rw [heq]
  cases hfind : (es.takeWhile within).find? fun e => !known e with
  | some e =>
      refine Or.inr ⟨fun hc => ?_, _, rfl⟩
      have hknown := hc.known e (List.mem_of_find?_eq_some hfind)
      simpa [hknown] using List.find?_some hfind
  | none =>
      have hall : ∀ e ∈ es.takeWhile within, known e = true := by
        simpa using List.find?_eq_none.mp hfind
      cases hdrop : es.dropWhile within with
      | nil =>
          refine Or.inr ⟨fun hc => ?_, _, rfl⟩
          simpa [stanzaOf, hdrop] using hc.closed
      | cons e rest =>
          have hclosed : (stanzaOf es).closed = true := by simp [stanzaOf, hdrop]
          dsimp only
          cases hhost : lastValue "host" (es.takeWhile within) with
          | none => exact Or.inr ⟨fun hc => by simpa [stanzaOf, hhost] using hc.host, _, rfl⟩
          | some host =>
              cases hport : lastValue "port" (es.takeWhile within) with
              | none => exact Or.inr ⟨fun hc => by simpa [stanzaOf, hport] using hc.port, _, rfl⟩
              | some port =>
                  refine Or.inl ⟨⟨hclosed, hall, ?_, ?_⟩, ?_⟩
                  · simp [stanzaOf, hhost]
                  · simp [stanzaOf, hport]
                  · simp only [closeSource, addSourceToConf, Except.map, Stanza.source, stanzaOf,
                      hhost, hport, Option.getD_some, List.tail_cons]
                    rfl

theorem loadOption_sources (e : ConfEntry) (c : Settings) :
    (loadOption e c).opts.sources = c.opts.sources := by
  rw [loadOption]
  split <;> rfl

theorem nextId_concat (c : Settings) (src : Source) :
    nextId { c with opts.sources := c.opts.sources ++ [src] } = src.id + 1 := by
  simp [nextId]

theorem loadEntries_source (h : e.key = ascii "source") (c : Settings) :
    loadEntries (e :: es) c = match parseSource c none none none es with
      | .error fatal => .error fatal
      | .ok (c', rest) => loadEntries rest c' := by
  rw [loadEntries, if_pos h]
  split
  next hparse => rw [hparse]
  next hparse =>
    dsimp only
    rw [hparse]

/-- Every stanza of the entries is complete, and the sources are theirs; or the
loop ends with a fatal exit. -/
theorem loadEntries_stanzas (es : List ConfEntry) (c : Settings) :
    ((∀ st ∈ stanzas es, st.Complete) ∧ ∃ c', loadEntries es c = .ok c' ∧
      c'.opts.sources = c.opts.sources ++
        (stanzas es).mapIdx fun i st => st.source (nextId c + i)) ∨
    (¬ (∀ st ∈ stanzas es, st.Complete) ∧ ∃ fatal, loadEntries es c = .error fatal) := by
  induction es using stanzas.induct generalizing c with
  | case1 => exact Or.inl ⟨by simp [stanzas], c, by rw [loadEntries], by simp [stanzas]⟩
  | case2 e es hkey _ ih =>
      rw [stanzas_cons hkey, List.forall_mem_cons, loadEntries_source hkey]
      obtain ⟨hcomplete, hparse⟩ | ⟨hbroken, fatal, hparse⟩ := parseSource_stanza c es
      · rw [hparse]
        dsimp only
        have hnext := nextId_concat c ((stanzaOf es).source (nextId c))
        obtain ⟨hall, c', hok, hsources⟩ | ⟨hsome, fatal, herror⟩ := ih
          { c with opts.sources := c.opts.sources ++ [(stanzaOf es).source (nextId c)] }
        · refine Or.inl ⟨⟨hcomplete, hall⟩, c', hok, ?_⟩
          rw [hsources, hnext, List.mapIdx_cons, List.append_assoc, List.singleton_append]
          simp only [Stanza.source, Nat.add_zero, Nat.add_assoc, Nat.add_comm 1]
        · exact Or.inr ⟨fun h => hsome h.2, fatal, herror⟩
      · rw [hparse]
        exact Or.inr ⟨fun h => hbroken h.1, fatal, rfl⟩
  | case3 e es hkey ih =>
      have hsources := loadOption_sources e c
      have hnext : nextId (loadOption e c) = nextId c := by rw [nextId, nextId, hsources]
      have hload := ih (loadOption e c)
      rw [hsources, hnext] at hload
      rwa [stanzas_other hkey, loadEntries, if_neg hkey]

/-- The list is loaded unless a stanza of it is not complete; the sources are then
those of the stanzas, numbered from 0 in their order. -/
theorem loadParsed_sources {strerror : String} {es : List ConfEntry} {c : Settings} (hne : es ≠ [])
    (hnone : c.opts.sources = []) :
    ((∃ fatal, loadParsed strerror es c = .error fatal) ↔ ∃ st ∈ stanzas es, ¬ st.Complete) ∧
      ∀ c', loadParsed strerror es c = .ok c' →
        c'.opts.sources = (stanzas es).mapIdx (fun i st => st.source i) ∧
        c'.opts.sources.map Source.id = List.range c'.opts.sources.length := by
  have hzero : nextId c = 0 := by rw [nextId, hnone]; rfl
  have hload := loadEntries_stanzas es c
  rw [hzero, hnone, List.nil_append] at hload
  simp only [Nat.zero_add] at hload
  rw [loadParsed, if_neg hne]
  obtain ⟨hall, c', hok, hsources⟩ | ⟨hsome, fatal, herror⟩ := hload
  · refine ⟨iff_of_false ?_ ?_, fun c₁ h => ?_⟩
    · rintro ⟨fatal, herror⟩
      rw [hok] at herror
      cases herror
    · rintro ⟨st, hst, hbroken⟩
      exact hbroken (hall st hst)
    · obtain rfl := Except.ok.inj (hok.symm.trans h)
      refine ⟨hsources, ?_⟩
      rw [hsources]
      apply List.ext_getElem
      · simp
      · intro i hi _
        simp [Stanza.source]
  · refine ⟨iff_of_true ⟨fatal, herror⟩ ?_, fun c₁ h => ?_⟩
    · simpa using hsome
    · rw [herror] at h
      cases h

def sampleEntries : List ConfEntry :=
  [⟨ascii "source", none⟩, ⟨ascii "host", none⟩, ⟨ascii "host", some (ascii "www.example.com")⟩,
    ⟨ascii "port", some (ascii "443")⟩, ⟨ascii "end", none⟩]

def defaults : Settings := ⟨setConfDefaults TimeSource.fallbackBuild, false⟩

theorem sampleEntries_loaded : ∃ c', loadParsed "Success" sampleEntries defaults = .ok c' ∧
    c'.opts.sources = (stanzas sampleEntries).mapIdx (fun i st => st.source i) ∧
    c'.opts.sources.map Source.id = List.range c'.opts.sources.length := by
  have hload := @loadParsed_sources "Success" sampleEntries defaults (List.cons_ne_nil _ _) rfl
  have hcomplete : ∀ st ∈ stanzas sampleEntries, st.Complete := by
    have hstanzas : stanzas sampleEntries = [stanzaOf sampleEntries.tail] := by
      have hrest : stanzas (sampleEntries.tail.dropWhile within).tail = [] := by
        rw [show (sampleEntries.tail.dropWhile within).tail = [] from rfl, stanzas]
      rw [← hrest]
      exact stanzas_cons rfl
    rw [hstanzas]
    intro st hst
    obtain rfl := List.mem_singleton.mp hst
    exact ⟨rfl, by decide, rfl, rfl⟩
  cases hparsed : loadParsed "Success" sampleEntries defaults with
  | error fatal =>
      obtain ⟨st, hst, hbroken⟩ := hload.1.mp ⟨fatal, hparsed⟩
      exact absurd (hcomplete st hst) hbroken
  | ok c' => exact ⟨c', rfl, hload.2 c' hparsed⟩

end Tlsdate.SourceStanzas
