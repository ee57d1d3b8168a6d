import BucketFs.Proofs.Location.Uri
import BucketFs.Proofs.Text.Triples

/-!
# Texts of URIs that are read back

The text of a URI has its path decoded, and reading decodes it once more.

* `Uri.parse_render_eq` — what the text of a URI is read as: the host, and the path decoded again.
* `Uri.parse_render_iff` — it is read as the URI itself exactly if the path holds no triple.
* `Uri.render_misread` — two URIs whose texts are read as another one and not at all.
-/

namespace BucketFs.Uri

open BucketFs.Text

theorem render_eq_of_path {u : Uri} {t : String} (h : u.path = slash ++ t) :
    u.render = scheme ++ "://" ++ u.host ++ slash ++ t := by
  rw [render, h]
  simp only [String.append_assoc]

/-- **The text of a URI is read as its host and its path, decoded again.** -/
theorem parse_render_eq {text : String} {u : Uri} (h : parse text = .ok u) :
    parse u.render = ofEncoded u.render u.host u.path := by
  obtain ⟨t, ht⟩ := exists_slash_append (path_of_parse h)
  rw [render_eq_of_path ht, parse_append (host_of_parse h), ht]

/-- **The text of a URI is read back exactly if its path holds no triple.**  Otherwise the triples
are decoded once more: the text is read as a URI of the same host and another path, or refused
because its bytes no longer write a text. -/
theorem parse_render_iff {text : String} {u : Uri} (h : parse text = .ok u) :
    (parse u.render = .ok u ↔ ¬ Percent.HoldsTriple u.path) ∧
      parse u.render = ofEncoded u.render u.host u.path := by
  refine ⟨?_, parse_render_eq h⟩
  rw [parse_render_eq h, ← Percent.decode?_eq_self_iff, ofEncoded]
  cases Percent.decode? u.path with
  | none => simp
  | some path =>
    obtain ⟨host, own⟩ := u
    simp

/-- A path with a space and a mark that starts no triple. -/
theorem parse_render_iff_marked :
    parse "S3://h:9000/50%25%20of/a%20b" = .ok ⟨"h:9000", "/50% of/a b"⟩ ∧
      render ⟨"h:9000", "/50% of/a b"⟩ = "s3://h:9000/50% of/a b" ∧
      parse (render ⟨"h:9000", "/50% of/a b"⟩) = .ok ⟨"h:9000", "/50% of/a b"⟩ ∧
      ¬ Percent.HoldsTriple "/50% of/a b" := by
  have h : parse "S3://h:9000/50%25%20of/a%20b" = .ok ⟨"h:9000", "/50% of/a b"⟩ := by rfl
  have hback : parse (render ⟨"h:9000", "/50% of/a b"⟩) = .ok ⟨"h:9000", "/50% of/a b"⟩ := by rfl
  exact ⟨h, by rfl, hback, (parse_render_iff h).1.1 hback⟩

/-- A path whose triple stands for itself is read as another path, and one whose triple is no UTF-8
is refused. -/
theorem render_misread :
    parse "s3://h/a%2541" = .ok ⟨"h", "/a%41"⟩ ∧
      parse (render ⟨"h", "/a%41"⟩) = .ok ⟨"h", "/aA"⟩ ∧
      parse "s3://h/a%25FF" = .ok ⟨"h", "/a%FF"⟩ ∧
      parse (render ⟨"h", "/a%FF"⟩) =
        .error (.invalidArgument (.undecodableUri "s3://h/a%FF")) :=
  ⟨by rfl, by rfl, by rfl, by rfl⟩

end BucketFs.Uri
