/-
What the errors of saving say about the access token.

If the file cannot be written, the error names the file and says why, and it is the same for every
token.  If the text cannot be made, the error shows the configuration as it is built, so the token
stands in it between quotation marks, and two tokens make two different messages.
-/
import ParameterManager.Proofs.Credential
import ParameterManager.Proofs.Saving
import ParameterManager.Proofs.Text.Quoted

namespace ParameterManager.ClientConf

variable {t : FileTree} {c : ClientConf} {p : FilePath} {a b : String}

/-- The errors of saving a configuration with one token or another. -/
structure SavingErrors (t : FileTree) (c : ClientConf) (p : FilePath) : Prop where
  /-- It is saved with every token or with none. -/
  together : ∀ a b, (∃ after, save t (c.withToken a) p = .ok after) ↔
    ∃ after, save t (c.withToken b) p = .ok after
  /-- The error of a file that cannot be written is the same for all tokens. -/
  unwritable : c.KeyIsText → ∀ a b e,
    save t (c.withToken a) p = .error e ↔ save t (c.withToken b) p = .error e
  /-- The error of a text that cannot be made shows the token. -/
  shown : ¬c.KeyIsText → ∃ front back : String, ∀ token,
    save t (c.withToken token) p = .error (.other (front ++ Text.quoted token ++ back))
  /-- Two messages are the same exactly if no text is the matter, or the tokens are the same. -/
  alike_iff : ∀ a b e e', save t (c.withToken a) p = .error e →
    save t (c.withToken b) p = .error e' → (e.message = e'.message ↔ c.KeyIsText ∨ a = b)

/-- If the text can be made, only writing the file can fail, whatever the text is. -/
theorem save_error_iff (h : c.KeyIsText) {e : ClientError} : save t c p = .error e ↔
    withContext .other FileError.message s!"Unable to write configuration to file {p.quoted}"
      (t.writeFile p []) = .error e := by
  obtain ⟨j, hj⟩ := toJson?_isSome_iff.mpr h
  unfold save
  rw [hj]
  simp only
  cases hwrite : t.writeFile p [] with
  | error cause => rw [FileTree.writeFile_error hwrite]
  | ok opened =>
      obtain ⟨after, hafter, -⟩ := FileTree.writeFile_again hwrite (Utf8.encode j.pretty)
      simp [hafter, withContext]

private theorem save_of_not_keyIsText (h : ¬c.KeyIsText) : save t c p = .error (.other
    s!"Unable to serialize configuration {c.debug}: path contains invalid UTF-8 characters") := by
  have hnone : c.toJson? = none := by
    rw [Option.eq_none_iff_forall_ne_some]
    exact fun j hj => h (toJson?_isSome_iff.mp ⟨j, hj⟩)
  rw [save, hnone]

/-- The debug form of a configuration before its token. -/
def debugFront (c : ClientConf) : String :=
  "ClientConf \x7b accept_invalid_certs: " ++ toString c.acceptInvalidCerts ++
    ", parameter_manager_url: " ++ Text.quoted c.url ++ ", access_token: " ++ "Some("

/-- The debug form of a configuration after its token. -/
def debugBack (c : ClientConf) : String :=
  ")" ++ ", service_account_key_path: " ++ debugOption FilePath.quoted c.keyPath ++
    ", timeout_secs: " ++ debugOption toString c.timeoutSecs ++ " \x7d"

/-- **The debug form shows the token.** -/
theorem debug_withToken (c : ClientConf) (token : String) :
    (c.withToken token).debug = c.debugFront ++ Text.quoted token ++ c.debugBack := by
  have hsome : debugOption Text.quoted (some token) = "Some(" ++ Text.quoted token ++ ")" := rfl
  unfold debug withToken debugFront debugBack
  simp only
  rw [hsome]
  simp only [String.append_assoc, -String.reduceAppend]

private theorem shown_of_not_keyIsText (h : ¬c.KeyIsText) : ∃ front back : String, ∀ token,
    save t (c.withToken token) p = .error (.other (front ++ Text.quoted token ++ back)) := by
  refine ⟨"Unable to serialize configuration " ++ c.debugFront,
    c.debugBack ++ ": path contains invalid UTF-8 characters", fun token => ?_⟩
  have hmessage : ∀ shown : String,
      s!"Unable to serialize configuration {shown}: path contains invalid UTF-8 characters"
        = "Unable to serialize configuration " ++ shown ++
          ": path contains invalid UTF-8 characters" := fun _ => rfl
  have hkey : ¬(c.withToken token).KeyIsText := h
  rw [save_of_not_keyIsText hkey, hmessage, debug_withToken]
  simp only [String.append_assoc, -String.reduceAppend]

private theorem save_error_congr (h : c.KeyIsText) (a b : String) (e : ClientError) :
    save t (c.withToken a) p = .error e ↔ save t (c.withToken b) p = .error e := by
  have ha : (c.withToken a).KeyIsText := h
  have hb : (c.withToken b).KeyIsText := h
  rw [save_error_iff ha, save_error_iff hb]

/-- Two tokens make two messages if no text can be made: a quoted token ends where its quotation
ends, whatever follows. -/
private theorem message_eq_iff (h : ¬c.KeyIsText) {e e' : ClientError}
    (he : save t (c.withToken a) p = .error e) (he' : save t (c.withToken b) p = .error e') :
    e.message = e'.message ↔ a = b := by
  obtain ⟨front, back, hshown⟩ := shown_of_not_keyIsText (t := t) (p := p) h
  obtain rfl := Except.error.inj ((hshown a).symm.trans he)
  obtain rfl := Except.error.inj ((hshown b).symm.trans he')
  have hmessage : ∀ text, (ClientError.other text).message = text := fun _ => rfl
  rw [hmessage, hmessage]
  constructor
  · intro heq
    simp only [String.append_assoc, String.append_right_inj] at heq
    exact (Text.quoted_append_inj heq).1
  · rintro rfl
    rfl

/-- **A message of saving shows the token exactly if the name of the key file is no text.** -/
theorem save_errors_show_token (t : FileTree) (c : ClientConf) (p : FilePath) :
    SavingErrors t c p where
  together a b := by
    rw [save_isOk_iff, save_isOk_iff]
    exact Iff.rfl
  unwritable h := save_error_congr h
  shown h := shown_of_not_keyIsText h
  alike_iff a b e e' he he' := by
    by_cases hkey : c.KeyIsText
    · obtain rfl := Except.error.inj (((save_error_congr hkey a b e).mp he).symm.trans he')
      exact ⟨fun _ => .inl hkey, fun _ => rfl⟩
    · rw [or_iff_right hkey]
      exact message_eq_iff hkey he he'

-- the token is shown as it is built, beside a key file whose name is no text
example :
    let c : ClientConf := { url := "u", keyPath := some ⟨[0xFF]⟩ }
    (match save .fresh (c.withToken "a\"b") (.ofString "c") with
      | .ok _ => ""
      | .error e => e.message) =
        "Unable to serialize configuration ClientConf \x7b accept_invalid_certs: false, " ++
        "parameter_manager_url: \"u\", access_token: Some(\"a\\\"b\"), " ++
        "service_account_key_path: Some(\"\\xFF\"), timeout_secs: None \x7d: " ++
        "path contains invalid UTF-8 characters" := by
  decide +kernel

end ParameterManager.ClientConf
