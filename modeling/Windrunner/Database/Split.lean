import Mathlib.Data.List.TakeWhile
import Windrunner.Database.SqlFile

/-!
# What the splitter makes of a file

Between the pieces of a file the splitter is in no string and in no comment (`Idle`), and a piece adds what
is kept of it to the query. So the queries of a file are its statements, as long as the splitter does not take
something for the beginning or the end of a string or a comment that is none.

* `step_text`, `step_string`, `step_singleline`, `step_multiline`: one character, in each of the scopes.
* `foldAround_piece`, `foldAround_statement`, `split_render`: pieces, statements and files.
* `executed_queries`: what is executed of a tame file.
-/

namespace Windrunner

open Lib

namespace AutoUpdater

namespace Splitter

variable {s : Splitter} {prev next : Option Char} {ch : Char} {q : SqlQuote}

def append (s : Splitter) (t : Text) : Splitter := { s with query := s.query ++ t }

def inString (s : Splitter) (status : StringStatus) : Splitter := { s with stringScope := status }

def inComment (s : Splitter) (scope : CommentScope) : Splitter := { s with commentScope := scope }

/-- The query is complete. -/
def finish (s : Splitter) : Splitter := { s with queries := s.queries ++ [s.query], query := [] }

@[simp] theorem append_append (s : Splitter) (t u : Text) :
    (s.append t).append u = s.append (t ++ u) := by simp [append]

@[simp] theorem append_nil (s : Splitter) : s.append [] = s := by simp [append]

theorem foldl_append {α : Type} (f : α → Text) (l : List α) (s : Splitter) :
    l.foldl (fun s a => s.append (f a)) s = s.append (l.flatMap f) := by
  induction l generalizing s with
  | nil => simp
  | cons a l ih => rw [List.foldl_cons, ih, append_append, List.flatMap_cons]

/-- In no string and no comment -/
structure Idle (s : Splitter) : Prop where
  string : s.stringScope = .none
  comment : s.commentScope = .none

theorem Idle.append (h : s.Idle) (t : Text) : (s.append t).Idle := ⟨h.1, h.2⟩

theorem Idle.finish (h : s.Idle) : s.finish.Idle := ⟨h.1, h.2⟩

theorem Idle.inString (h : s.Idle) : s.inString .none = s := by
  cases s
  simpa [Splitter.inString] using h.string.symm

theorem Idle.inComment (h : s.Idle) : s.inComment .none = s := by
  cases s
  simpa [Splitter.inComment] using h.comment.symm

/-! ## One character -/

theorem step_text (h : s.Idle) (hq : ch ≠ '\'' ∧ ch ≠ '"' ∧ ch ≠ ';')
    (hblock : ch = '/' → next ≠ some '*') (hline : ch = '-' → next ≠ some '-') :
    step prev ch next s = s.append (SqlPiece.lineBreak ch) := by
  unfold step SqlPiece.lineBreak
  by_cases hn : ch = '\n'
  · simp [hn, h.comment, append]
  by_cases hr : ch = '\r'
  · simp [hr, h.comment, append]
  · have hb : ¬ (ch = '/' ∧ next = some '*') := fun hc => hblock hc.1 hc.2
    have hl : ¬ (ch = '-' ∧ next = some '-') := fun hc => hline hc.1 hc.2
    simp [hn, hr, h.comment, h.string, hb, hl, hq, add, append]

theorem step_semicolon (h : s.Idle) : step prev ';' next s = (s.append [';']).finish := by
  simp [step, h.comment, h.string, add, append, finish]

/-- The scope of a string -/
def scopeOf : SqlQuote → StringStatus
  | .single => .singleQuotes
  | .double => .doubleQuotes

/-- In a string with the quote `q` -/
structure InString (q : SqlQuote) (s : Splitter) : Prop where
  string : s.stringScope = scopeOf q
  comment : s.commentScope = .none

theorem InString.append (h : s.InString q) (t : Text) : (s.append t).InString q := ⟨h.1, h.2⟩

theorem Idle.inString_inString (h : s.Idle) : (s.inString (scopeOf q)).InString q := ⟨rfl, h.2⟩

theorem InString.idle (h : s.InString q) : (s.inString .none).Idle := ⟨rfl, h.2⟩

theorem step_open (h : s.Idle) :
    step prev q.char next s = (s.append [q.char]).inString (scopeOf q) := by
  cases q <;>
    simp [step, h.comment, h.string, SqlQuote.char, scopeOf, quote, add, append, inString]

/-- A character of a string. A quote like its own has a backslash before it. -/
theorem step_string (h : s.InString q) (hn : ch ≠ '\n') (hr : ch ≠ '\r')
    (hq : ch = q.char → prev = some '\\') : step prev ch next s = s.append [ch] := by
  cases q with
  | single =>
    by_cases hc : ch = '\''
    · simp [step, h.comment, h.string, scopeOf, quote, add, append, hc, hq hc]
    · by_cases hd : ch = '"' <;>
        simp [step, h.comment, h.string, scopeOf, quote, add, append, hc, hd, hn, hr]
  | double =>
    by_cases hc : ch = '"'
    · simp [step, h.comment, h.string, scopeOf, quote, add, append, hc, hq hc]
    · by_cases hd : ch = '\'' <;>
        simp [step, h.comment, h.string, scopeOf, quote, add, append, hc, hd, hn, hr]

theorem step_close (h : s.InString q) (hprev : prev ≠ some '\\') :
    step prev q.char next s = (s.append [q.char]).inString .none := by
  cases q <;>
    simp [step, h.comment, h.string, SqlQuote.char, scopeOf, quote, add, append, inString, hprev]

/-- A character of a line comment -/
theorem step_singleline (h : s.commentScope = .singleline) (hn : ch ≠ '\n') (hr : ch ≠ '\r')
    (hblock : ch = '/' → next ≠ some '*') : step prev ch next s = s := by
  have hb : ¬ (ch = '/' ∧ s.stringScope = .none ∧ next = some '*') := fun hc => hblock hc.1 hc.2.2
  simp [step, h, hn, hr, hb]

/-- A character of a block comment, of which only the line feeds are kept -/
theorem step_multiline (h : s.commentScope = .multiline) (hend : ch = '/' → prev ≠ some '*') :
    step prev ch next s = s.append (if ch = '\n' then [' '] else []) := by
  have he : ¬ (ch = '/' ∧ prev = some '*') := fun hc => hend hc.1 hc.2
  have hsame : { s with commentScope := .multiline } = s := by rw [← h]
  by_cases hn : ch = '\n'
  · simp [step, h, hn, append]
  by_cases hr : ch = '\r'
  · simp [step, h, hr, append]
  · simp [step, h, hn, hr, he, append, hsame]

/-! ## Pieces -/

variable {before after : Option Char}

/-- The rest of a string up to its end -/
theorem foldAround_parts {parts : List (StringPart q)}
    (h : s.InString q) (hapart : Along StringPart.render StringPart.Apart parts [q.char])
    (hplain : ∀ c ∈ parts.flatMap (·.render), c ≠ '\n' ∧ c ≠ '\r') (hbefore : before = some '\\' →
      (parts.flatMap (·.render) ++ [q.char]).head? ≠ some q.char) :
    foldAround step before (parts.flatMap (·.render) ++ [q.char]) after s =
      (s.append (parts.flatMap (·.render) ++ [q.char])).inString .none := by
  induction parts generalizing before s with
  | nil =>
    have hprev : before ≠ some '\\' := fun hb => hbefore hb rfl
    exact step_close h hprev
  | cons part parts ih =>
    obtain ⟨hpart, hapart⟩ := hapart
    rw [List.flatMap_cons] at hplain ⊢
    simp only [List.mem_append] at hplain
    have hrest : ∀ c ∈ parts.flatMap (·.render), c ≠ '\n' ∧ c ≠ '\r' := fun c hc =>
      hplain c (.inr hc)
    have hself : ∀ c ∈ part.render, c ≠ '\n' ∧ c ≠ '\r' := fun c hc => hplain c (.inl hc)
    cases part with
    | plain c hc =>
      have hstep : ∀ next, step before c next s = s.append [c] := fun next =>
        step_string h (hself c (.head _)).1 (hself c (.head _)).2 fun hq => absurd hq hc.1
      show foldAround step before (c :: (parts.flatMap (·.render) ++ [q.char])) after s = _
      rw [foldAround_cons, hstep, ih (h.append _) hapart hrest fun hb => ?_]
      · simp [StringPart.render]
      · exact absurd (Option.some.inj hb) hc.2
    | escape c =>
      have hbackslash : ∀ next, step before '\\' next s = s.append ['\\'] := fun next =>
        step_string h (by decide) (by decide) fun hq => by cases q <;> cases hq
      have hstep : ∀ next, step (some '\\') c next (s.append ['\\']) =
          (s.append ['\\']).append [c] := fun next =>
        step_string (h.append _) (hself c (.tail _ (.head _))).1 (hself c (.tail _ (.head _))).2
          fun _ => rfl
      show foldAround step before ('\\' :: c :: (parts.flatMap (·.render) ++ [q.char])) after s = _
      rw [foldAround_cons, hbackslash, foldAround_cons, hstep,
        ih ((h.append _).append _) hapart hrest fun hb => hpart (Option.some.inj hb)]
      simp [StringPart.render]
    | doubled =>
      -- the string is closed and opened again
      have hprev : before ≠ some '\\' := fun hb => hbefore hb rfl
      have hclose : ∀ next, step before q.char next s = (s.append [q.char]).inString .none :=
        fun next => step_close h hprev
      have hidle : ((s.append [q.char]).inString .none).Idle := (h.append _).idle
      show foldAround step before (q.char :: q.char :: (parts.flatMap (·.render) ++ [q.char])) after s
        = _
      rw [foldAround_cons, hclose, foldAround_cons, step_open hidle,
        ih (hidle.append _).inString_inString hapart hrest fun hb => ?_]
      · simp [StringPart.render, append, inString]
      · cases q <;> cases hb

theorem foldAround_string {parts : List (StringPart q)} {rest : Text}
    (h : s.Idle) (ht : (SqlPiece.string q parts).Tame rest) :
    foldAround step before (SqlPiece.string q parts).render after s =
      s.append (SqlPiece.string q parts).kept := by
  obtain ⟨hplain, hapart⟩ := ht
  show foldAround step before (q.char :: (parts.flatMap (·.render) ++ [q.char])) after s = _
  rw [foldAround_cons, step_open h, foldAround_parts (h.append _).inString_inString hapart
    (fun c hc => ⟨(hplain c hc).1, (hplain c hc).2.1⟩) fun hb => by cases q <;> cases hb]
  have hidle : (s.append (SqlPiece.string q parts).kept).Idle := h.append _
  rw [← hidle.inString]
  simp [SqlPiece.kept, SqlPiece.render, append, inString]

/-- A line comment up to the end of the line -/
theorem foldAround_line {body : Text} (h : s.Idle)
    (hbody : '\n' ∉ body ∧ '\r' ∉ body) (ht : ¬ ['/', '*'] <:+: body) (hafter : after ≠ some '*') :
    foldAround step before ('-' :: '-' :: body) after s = s.inComment .singleline := by
  have hopen : step before '-' (some '-') s = s.inComment .singleline := by
    simp [step, h.comment, h.string, inComment]
  have hdash : ∀ next, step (some '-') '-' next (s.inComment .singleline) =
      s.inComment .singleline := fun next =>
    step_singleline rfl (by decide) (by decide) fun hc => by cases hc
  rw [foldAround_cons, foldAround_cons, List.head?_cons, Option.some_or, hopen, hdash]
  have hfold : foldAround step (some '-') body after (s.inComment .singleline) =
      body.foldl (fun s _ => s) (s.inComment .singleline) := by
    refine (foldAround_eq_foldl _ (·.commentScope = .singleline) rfl fun l₁ c l₂ hl s hs => ?_).1
    have hc : c ∈ body := by simp [hl]
    refine ⟨step_singleline hs (fun he => hbody.1 (he ▸ hc)) (fun he => hbody.2 (he ▸ hc)) ?_, hs⟩
    rintro rfl hnext
    cases l₂ with
    | nil => exact hafter hnext
    | cons c l₂ =>
      obtain rfl : c = '*' := Option.some.inj hnext
      exact ht ⟨l₁, l₂, by simp [hl]⟩
  rw [hfold]
  simp

theorem foldAround_lineComment {body : Text} {lineEnd : LineEnd}
    {hbody : '\n' ∉ body ∧ '\r' ∉ body} {rest : Text} (h : s.Idle)
    (ht : (SqlPiece.lineComment body hbody lineEnd).Tame rest) :
    foldAround step before (SqlPiece.lineComment body hbody lineEnd).render after s =
      s.append (SqlPiece.lineComment body hbody lineEnd).kept := by
  show foldAround step before (('-' :: '-' :: body) ++ [lineEnd.char]) after s = _
  rw [foldAround_append, foldAround_line h hbody ht (by cases lineEnd <;> simp [LineEnd.char])]
  cases lineEnd <;>
    simp [foldAround_cons, step, LineEnd.char, inComment, SqlPiece.kept, SqlPiece.lineBreak, append,
      h.comment]

theorem flatMap_feeds (body : Text) : body.flatMap (fun c => if c = '\n' then [' '] else []) =
    (body.filter (· = '\n')).map fun _ => ' ' := by
  induction body with
  | nil => rfl
  | cons c body ih =>
    rw [List.flatMap_cons, ih, List.filter_cons]
    by_cases hc : c = '\n' <;> simp [hc]

/-- A block comment is closed by the first slash after an asterisk. -/
theorem foldAround_blockComment {body : Text}
    {hbody : ¬ ['*', '/'] <:+: body} {rest : Text} (h : s.Idle)
    (ht : (SqlPiece.blockComment body hbody).Tame rest) :
    foldAround step before (SqlPiece.blockComment body hbody).render after s =
      s.append (SqlPiece.blockComment body hbody).kept := by
  have hopen : step before '/' (some '*') s = s.inComment .multiline := by
    simp [step, h.comment, h.string, inComment]
  have hstar : ∀ prev next (s : Splitter), s.commentScope = .multiline →
      step prev '*' next s = s := fun prev next s hs => by
    rw [step_multiline hs fun hc => by cases hc]
    simp
  have hclose : ∀ next (s : Splitter), s.commentScope = .multiline →
      step (some '*') '/' next s = s.inComment .none := fun next s hs => by
    simp [step, hs, inComment]
  have hfold : foldAround step (some '*') body (some '*') (s.inComment .multiline) =
      (s.inComment .multiline).append (SqlPiece.blockComment body hbody).kept := by
    rw [SqlPiece.kept, ← flatMap_feeds, ← foldl_append]
    refine (foldAround_eq_foldl _ (·.commentScope = .multiline) rfl fun l₁ c l₂ hl s hs => ?_).1
    refine ⟨step_multiline hs ?_, hs⟩
    rintro rfl hprev
    cases List.eq_nil_or_concat' l₁ with
    | inl hnil => exact ht (by simp [hl, hnil])
    | inr hcat =>
      obtain ⟨l, d, rfl⟩ := hcat
      obtain rfl : d = '*' := by simpa using hprev
      exact hbody ⟨l, l₂, by simp [hl]⟩
  show foldAround step before ('/' :: '*' :: (body ++ ['*', '/'])) after s = _
  rw [foldAround_cons, foldAround_cons, List.head?_cons, Option.some_or, hopen, hstar _ _ _ rfl,
    foldAround_append, List.head?_cons, Option.some_or, hfold, foldAround_cons, hstar _ _ _ rfl,
    foldAround_cons, hclose _ _ rfl, foldAround_nil]
  exact (h.append _).inComment

/-- A piece adds what is kept of it. -/
theorem foldAround_piece {p : SqlPiece} {rest : Text} (h : s.Idle)
    (ht : p.Tame rest) : foldAround step before p.render rest.head? s = s.append p.kept := by
  cases p with
  | text c hc => exact step_text h hc ht.2.1 ht.2.2
  | string q parts => exact foldAround_string h ht
  | lineComment body hbody lineEnd => exact foldAround_lineComment h ht
  | blockComment body hbody => exact foldAround_blockComment h ht

theorem foldAround_pieces {pieces : List SqlPiece} {rest : Text} (h : s.Idle)
    (ht : Along SqlPiece.render SqlPiece.Tame pieces rest) :
    foldAround step before (pieces.flatMap (·.render)) rest.head? s =
      s.append (pieces.flatMap (·.kept)) := by
  rw [← foldl_append]
  exact (foldAround_flatMap (fun s p => s.append p.kept) Idle h ht fun p _ _ _ hp hs =>
    ⟨foldAround_piece hs hp, hs.append _⟩).1

/-! ## Files -/

/-- A statement ends with its semicolon. -/
theorem foldAround_statement {pieces : List SqlPiece} (h : s.Idle)
    (ht : Along SqlPiece.render SqlPiece.Tame pieces [';']) :
    foldAround step before (SqlFile.renderStatement pieces) after s =
      (s.append (SqlFile.query pieces)).finish := by
  have hpieces : ∀ before, foldAround step before (pieces.flatMap (·.render)) (some ';') s =
      s.append (pieces.flatMap (·.kept)) := fun _ => foldAround_pieces h ht
  unfold SqlFile.renderStatement SqlFile.query
  rw [foldAround_append, List.head?_cons, Option.some_or, hpieces, foldAround_cons,
    step_semicolon (h.append _), foldAround_nil, append_append]

theorem foldl_finish (statements : List (List SqlPiece)) (h : s.query = []) :
    statements.foldl (fun s pieces => (s.append (SqlFile.query pieces)).finish) s =
      { s with queries := s.queries ++ statements.map SqlFile.query } := by
  induction statements generalizing s with
  | nil => simp
  | cons pieces statements ih =>
    rw [List.foldl_cons, ih rfl]
    simp [finish, append, h]

end Splitter

open Splitter

/-- A line comment at the end of the file, or none -/
theorem foldAround_renderComment {f : SqlFile} {before : Option Char} {s : Splitter} (hs : s.Idle)
    (hf : f.Tame) : foldAround step before f.renderComment none s = s ∨
      foldAround step before f.renderComment none s = s.inComment .singleline := by
  unfold SqlFile.renderComment
  cases hlast : f.lastComment with
  | none => exact .inl rfl
  | some body =>
    refine .inr (foldAround_line hs (f.lastComment_line body hlast) (hf.2.2 body hlast) ?_)
    exact Option.some_ne_none '*' |>.symm

/-- The splitter has the statements of a tame file, and what is left is of the end of it. -/
theorem split_render {f : SqlFile} (hf : f.Tame) :
    (split f.render).queries = f.queries ∧ (split f.render).stringScope = .none ∧
      (split f.render).query = f.trailer.flatMap (·.kept) := by
  have hstatements : ∀ rest : Text,
      foldAround step none (f.statements.flatMap SqlFile.renderStatement) rest.head? {} =
        { queries := f.queries } := fun rest => by
    have hidle : ({} : Splitter).Idle := ⟨rfl, rfl⟩
    have halong : Along SqlFile.renderStatement
        (fun _ pieces => Along SqlPiece.render SqlPiece.Tame pieces [';']) f.statements rest :=
      .of_forall fun pieces hp _ => hf.1 pieces hp
    rw [(foldAround_flatMap (fun s pieces => (s.append (SqlFile.query pieces)).finish) Idle hidle
      halong fun pieces _ _ s hp hs => ⟨foldAround_statement hs hp, (hs.append _).finish⟩).1,
      foldl_finish _ rfl]
    rfl
  have hidle : ({ queries := f.queries } : Splitter).Idle := ⟨rfl, rfl⟩
  have hsplit : split f.render = foldAround step ((f.trailer.flatMap (·.render)).getLast?.or
      ((f.statements.flatMap SqlFile.renderStatement).getLast?.or none)) f.renderComment none
        (({ queries := f.queries } : Splitter).append (f.trailer.flatMap (·.kept))) := by
    unfold split SqlFile.render
    rw [foldAround_append, @Option.or_none _ (List.head? _), hstatements, foldAround_append,
      @Option.or_none _ (List.head? _), foldAround_pieces hidle hf.2.1]
  rw [hsplit]
  rcases foldAround_renderComment (hidle.append _) hf with hcomment | hcomment
  · rw [hcomment]
    exact ⟨rfl, rfl, rfl⟩
  · rw [hcomment]
    exact ⟨rfl, rfl, rfl⟩

theorem mem_lineBreak {c d : Char} (h : c ∈ SqlPiece.lineBreak d) :
    c = ' ' ∨ (c = d ∧ d ≠ '\n' ∧ d ≠ '\r') := by
  unfold SqlPiece.lineBreak at h
  split_ifs at h with hn hr
  · exact .inl (List.mem_singleton.1 h)
  · cases h
  · exact .inr ⟨List.mem_singleton.1 h, hn, hr⟩

theorem mem_lineBreak_char {c : Char} {lineEnd : LineEnd} (h : c ∈ SqlPiece.lineBreak lineEnd.char) :
    c = ' ' := by
  rcases mem_lineBreak h with hc | ⟨-, hn, hr⟩
  · exact hc
  · cases lineEnd
    · exact absurd rfl hn
    · exact absurd rfl hr

theorem mem_feeds {c : Char} {body : Text}
    (h : c ∈ (body.filter (· = '\n')).map fun _ => ' ') : c = ' ' := by
  obtain ⟨_, -, hc⟩ := List.mem_map.1 h
  exact hc.symm

/-- What is left of the end of a file are blanks. -/
theorem kept_isGap {p : SqlPiece} (h : p.IsGap) : ∀ c ∈ p.kept, c ∈ ['\t', '\r', '\n', ' '] := by
  intro c hc
  cases p with
  | text d hd =>
    rcases mem_lineBreak hc with rfl | ⟨rfl, -⟩
    · decide
    · exact h
  | string q parts => exact h.elim
  | lineComment body hbody lineEnd =>
    rw [mem_lineBreak_char hc]
    decide
  | blockComment body hbody =>
    rw [mem_feeds hc]
    decide

/-- There is no zero in what is kept of a tame piece. -/
theorem zero_not_mem_kept {p : SqlPiece} {rest : Text} (h : p.Tame rest) : '\x00' ∉ p.kept := by
  intro hm
  cases p with
  | text c hc =>
    rcases mem_lineBreak hm with hc | ⟨hc, -⟩
    · cases hc
    · exact h.1 hc.symm
  | string q parts =>
    simp only [SqlPiece.kept, SqlPiece.render, List.mem_cons, List.mem_append, List.not_mem_nil,
      or_false] at hm
    rcases hm with hq | hm | hq
    · cases q <;> cases hq
    · exact (h.1 _ hm).2.2 rfl
    · cases q <;> cases hq
  | lineComment body hbody lineEnd => cases mem_lineBreak_char hm
  | blockComment body hbody => cases mem_feeds hm

theorem cStr_query {pieces : List SqlPiece} (h : Along SqlPiece.render SqlPiece.Tame pieces [';']) :
    cStr (SqlFile.query pieces) = SqlFile.query pieces := by
  unfold cStr SqlFile.query
  rw [List.takeWhile_eq_self_iff]
  intro c hc
  rw [decide_eq_true_eq]
  rintro rfl
  rcases List.mem_append.1 hc with hc | hc
  · obtain ⟨p, hp, hc⟩ := List.mem_flatMap.1 hc
    obtain ⟨rest, ht⟩ := h.of_mem hp
    exact zero_not_mem_kept ht hc
  · cases List.mem_singleton.1 hc

/-- All the calls for a tame file -/
theorem executeUpdate_render {migration : FileMigration} {f : SqlFile} (hf : f.Tame)
    (hdata : migration.fileData = f.render) (committed : Bool) :
    executeUpdate migration true committed =
      (committed, [.beginTransaction] ++ f.queries.map .execute ++
        [.pExecute insertMigration
          [migrationTable, cStr migration.name, cStr migration.module, cStr migration.hash],
         .commitTransactionDirect]) := by
  obtain ⟨hqueries, hscope, hquery⟩ := split_render hf
  have hblank : ((split f.render).query.any fun c => c ∉ ['\t', '\r', '\n', ' ']) = false := by
    rw [hquery, List.any_eq_false]
    intro c hc
    obtain ⟨p, hp, hc⟩ := List.mem_flatMap.1 hc
    simp only [Bool.not_eq_true, decide_eq_false_iff_not, not_not]
    exact kept_isGap (f.trailer_gap p hp) c hc
  have hmap : f.queries.map (fun query => DatabaseCall.execute (cStr query)) =
      f.queries.map .execute := by
    refine List.map_congr_left fun query hq => ?_
    obtain ⟨pieces, hp, rfl⟩ := List.mem_map.1 hq
    rw [cStr_query (hf.1 pieces hp)]
  unfold executeUpdate
  rw [hdata]
  simp only [Bool.not_true, Bool.false_eq_true, if_false, hscope, ne_eq, not_true_eq_false, hblank,
    hqueries, hmap]

theorem executed_append (calls₁ calls₂ : List DatabaseCall) :
    executed (calls₁ ++ calls₂) = executed calls₁ ++ executed calls₂ :=
  List.filterMap_append

theorem executed_execute (queries : List Text) : executed (queries.map .execute) = queries := by
  unfold executed
  rw [List.filterMap_map]
  exact List.filterMap_some

/-- Of a tame file exactly the statements are executed, in order, and then the update is recorded and
committed. -/
theorem executed_queries (f : SqlFile) (hf : f.Tame) (migration : FileMigration)
    (hdata : migration.fileData = f.render) (committed : Bool) :
    executed (executeUpdate migration true committed).2 = f.queries ∧
      (executeUpdate migration true committed).1 = committed := by
  rw [executeUpdate_render hf hdata]
  refine ⟨?_, rfl⟩
  rw [executed_append, executed_append, executed_execute]
  exact List.append_nil _

/-- Strings with semicolons, marks of comments, and quotes; comments with marks of comments and quotes -/
def orderlyFile : SqlFile where
  statements :=
    [[.string .single [.plain ';' (by decide), .escape '\'', .plain '-' (by decide),
        .plain '-' (by decide), .doubled, .escape '\\', .plain '"' (by decide)],
      .text '-' (by decide)],
     [.lineComment " '--*/".toList (by decide) .carriageReturn, .text '\n' (by decide),
      .blockComment "'-- /*".toList (by decide), .text '1' (by decide)]]
  trailer := [.text '\n' (by decide)]
  lastComment := some " end".toList
  trailer_gap := by decide
  lastComment_line := by decide

theorem executed_queries_orderlyFile :
    executed (executeUpdate { fileData := orderlyFile.render } true true).2 =
      ["';\\'--''\\\\\"'-;".toList, " 1;".toList] :=
  (executed_queries orderlyFile (by decide) { fileData := orderlyFile.render } rfl true).1

/-- A string that ends with a backslash, one with a line feed and one with a zero; two signs; a line comment
with the mark of a block comment; and a block comment that begins with a slash -/
def awkwardFiles : List SqlFile :=
  [{ statements := [[.string .single [.escape '\\']]] },
   { statements := [[.string .single [.plain '\n' (by decide)]]] },
   { statements := [[.string .single [.plain '\x00' (by decide)]]] },
   { statements := [[.text '5' (by decide), .text '-' (by decide), .text '-' (by decide),
       .text '3' (by decide)]] },
   { statements := [[.lineComment " /*".toList (by decide) .lineFeed, .text '1' (by decide)]] },
   { statements := [[.blockComment "/".toList (by decide), .text '1' (by decide)]] }]

theorem awkwardFiles_not_executed : (awkwardFiles.all fun f => decide (f.Lexed ∧
    executed (executeUpdate { fileData := f.render } true true).2 ≠ f.queries)) = true := by decide

end AutoUpdater

end Windrunner
