import DesignMarkup.Command.Run
import DesignMarkup.Proofs.Markup.Escape

/-!
Pages of generated code.  The text of a page tells its title, whether it links a style sheet, and
its body, so that two pages with the same text are the same.
-/

namespace DesignMarkup

/-- A page: its title, the name of the style sheet that it links, less the ending, and its body. -/
structure Page where
  title : String
  sheet : Option String
  body : String

namespace Page

/-! The parts of a page that are the same on every page. -/

def beforeTitle : String :=
  "<!DOCTYPE html>\n<html>\n<head>\n  <meta charset=\"UTF-8\">\n" ++ "  <title>"

def afterTitle : String :=
  "</title>\n"

def beforeSheet : String :=
  "  <link rel=\"stylesheet\" href=\""

def beforeBody : String :=
  "</head>\n<body>\n"

def afterBody : String :=
  "</body>\n</html>\n"

/-- The line that links a style sheet, if there is one. -/
def link : Option String → String
  | none => ""
  | some name => beforeSheet ++ Markup.escape name ++ ".css\">\n"

/-- The text of a page with a title, the line that links a style sheet, and a body. -/
def frame (title line body : String) : String :=
  beforeTitle ++ Markup.escape title ++ afterTitle ++ line ++ beforeBody ++ body ++ afterBody

def text (p : Page) : String :=
  frame p.title (link p.sheet) p.body

/-- The page of generated code. -/
def ofCode (stem : String) (code : GeneratedCode) : Page where
  title := stem
  sheet := if code.css = "" then none else some stem
  body := if code.html = "" then "" else code.html ++ "\n"

theorem text_ofCode (stem : String) (code : GeneratedCode) :
    (ofCode stem code).text = Command.page stem code := by
  have hlink : link (if code.css = "" then none else some stem) = if code.css = "" then ""
      else beforeSheet ++ Markup.escape stem ++ ".css\">\n" := by
    split <;> rfl
  exact congrArg (fun line => frame stem line (ofCode stem code).body) hlink

theorem toList_frame (title line body : String) :
    (frame title line body).toList = beforeTitle.toList ++ (Markup.escapeChars title.toList ++
      (afterTitle.toList ++ (line.toList ++ (beforeBody.toList ++
        (body.toList ++ afterBody.toList))))) := by
  simp only [frame, String.toList_append, Markup.escape, String.toList_ofList, List.append_assoc]

theorem toList_link (name : String) :
    (link (some name)).toList = beforeSheet.toList ++
      (Markup.escapeChars (name.toList ++ ".css".toList) ++ '"' :: ">\n".toList) := by
  have hending : Markup.escapeChars ".css".toList = ".css".toList := by decide
  have hafter : ".css\">\n".toList = ".css".toList ++ '"' :: ">\n".toList := by decide
  rw [link, String.toList_append, String.toList_append, Markup.escape, String.toList_ofList,
    Markup.escapeChars_append, hending, hafter]
  simp only [List.append_assoc]

theorem eq_of_frame_eq {title title' body body' : String} {sheet sheet' : Option String}
    (h : frame title (link sheet) body = frame title' (link sheet') body') :
    title = title' ∧ sheet = sheet' ∧ body = body' := by
  have hchars := congrArg String.toList h
  have hafter : afterTitle.toList = '<' :: "/title>\n".toList := by decide
  have hbody : ∀ {body body' : String}, beforeBody.toList ++ (body.toList ++ afterBody.toList) =
      beforeBody.toList ++ (body'.toList ++ afterBody.toList) → body = body' := by
    intro body body' heq
    rw [List.append_cancel_left_eq, List.append_cancel_right_eq] at heq
    exact String.toList_injective heq
  -- a page without a style sheet goes on with a tag where one with a style sheet has spaces
  have hsheet : ∀ {name : String} {rest rest' : List Char},
      beforeBody.toList ++ rest ≠ (link (some name)).toList ++ rest' := by
    intro name rest rest' heq
    rw [toList_link] at heq
    exact absurd (congrArg List.head? heq) (by simp [beforeBody, beforeSheet])
  rw [toList_frame, toList_frame, List.append_cancel_left_eq, hafter, List.cons_append,
    List.cons_append] at hchars
  obtain ⟨htitle, hrest⟩ := Markup.eq_and_eq_of_escapeChars_append (by decide) (by decide) hchars
  rw [List.append_cancel_left_eq] at hrest
  refine ⟨String.toList_injective htitle, ?_⟩
  cases sheet with
  | none =>
      cases sheet' with
      | none => exact ⟨rfl, hbody hrest⟩
      | some name => exact absurd hrest hsheet
  | some name =>
      cases sheet' with
      | none => exact absurd hrest.symm hsheet
      | some name' =>
          simp only [toList_link, List.append_assoc, List.cons_append,
            List.append_cancel_left_eq] at hrest
          obtain ⟨hname, hrest⟩ :=
            Markup.eq_and_eq_of_escapeChars_append (by decide) (by decide) hrest
          rw [List.append_cancel_right_eq] at hname
          rw [List.append_cancel_left_eq] at hrest
          exact ⟨congrArg some (String.toList_injective hname), hbody hrest⟩

/-- The text of a page tells its title, the style sheet that it links, and its body. -/
theorem text_injective {p q : Page} (h : p.text = q.text) : p = q := by
  obtain ⟨htitle, hsheet, hbody⟩ := eq_of_frame_eq h
  rw [Page.mk.injEq]
  exact ⟨htitle, hsheet, hbody⟩

end Page
end DesignMarkup
