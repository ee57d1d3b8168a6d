import BucketFs.Bytes.Base64
import BucketFs.Bytes.Basic
import BucketFs.Bytes.Hex
import BucketFs.Bytes.Md5
import BucketFs.Bytes.Utf8
import BucketFs.Call.LocalFile
import BucketFs.Call.Program
import BucketFs.Call.Store
import BucketFs.Directory.Children
import BucketFs.Directory.Status
import BucketFs.Error
import BucketFs.Files.Basic
import BucketFs.Files.Copy
import BucketFs.Json.Reader
import BucketFs.Json.Value
import BucketFs.KeyMap
import BucketFs.Listing.Page
import BucketFs.Listing.Token
import BucketFs.Location.FsId
import BucketFs.Location.Path
import BucketFs.Location.Uri
import BucketFs.Object.Acl
import BucketFs.Object.ByteRange
import BucketFs.Object.Etag
import BucketFs.Object.Info
import BucketFs.Proofs.KeyMap
import BucketFs.Proofs.Listing.Entries
import BucketFs.Proofs.Text.Prefix
import BucketFs.Registry.Basic
import BucketFs.Registry.FileSystem
import BucketFs.Remote.BucketName
import BucketFs.Remote.Client
import BucketFs.Remote.Host
import BucketFs.Remote.Partition
import BucketFs.Remote.Reply
import BucketFs.Remote.Request
import BucketFs.Remote.ResourceName
import BucketFs.Remote.Route
import BucketFs.Remote.WebAddress
import BucketFs.Settings
import BucketFs.Store.Answer
import BucketFs.Store.Basic
import BucketFs.Store.Faulty
import BucketFs.Store.Page
import BucketFs.Text.Blank
import BucketFs.Text.Number
import BucketFs.Text.Percent
import BucketFs.Text.Punycode
import BucketFs.Text.Quoted
import BucketFs.Text.Separated
import BucketFs.Text.Unprintable
import BucketFs.Time.Calendar
import BucketFs.Time.Rfc3339
import BucketFs.Time.Timestamp
import BucketFs.Transfer.Phase
import BucketFs.Transfer.Plan
import BucketFs.Transfer.Run
import BucketFs.Transfer.SessionBook
import BucketFs.Transfer.Upload
import BucketFs.Proofs.Bytes.Base64
import BucketFs.Proofs.Listing.Pages
import BucketFs.Proofs.Store.Effect
import BucketFs.Proofs.Text.ByteOrder
import BucketFs.Proofs.Listing.Pagination
import BucketFs.Proofs.Directory.Children
import BucketFs.Proofs.Call.Along
import BucketFs.Proofs.Call.Events
import BucketFs.Proofs.Transfer.Book
import BucketFs.Proofs.Transfer.Sending
import BucketFs.Proofs.Transfer.Session
import BucketFs.Proofs.Transfer.Source
import BucketFs.Proofs.Store.Sessions
import BucketFs.Proofs.Transfer.Protocol
import BucketFs.Proofs.Store.Objects
import BucketFs.Proofs.Transfer.Assembly
import BucketFs.Proofs.Transfer.Content
import BucketFs.Proofs.Text.Names
import BucketFs.Proofs.Directory.Status
import BucketFs.Proofs.Files.Locate
import BucketFs.Proofs.Files.Presence
import BucketFs.Proofs.Store.Touched
import BucketFs.Proofs.Transfer.Target
import BucketFs.Proofs.Files.Touched
import BucketFs.Proofs.Files.Move
import BucketFs.Proofs.Files.Unfinished
import BucketFs.Proofs.Files.Worklist
import BucketFs.Proofs.Files.Walk
import BucketFs.Proofs.Files.Fresh
import BucketFs.Proofs.Files.Mirror
import BucketFs.Files.Operation
import BucketFs.Proofs.Registry.Entries
import BucketFs.Proofs.Registry.Course
import BucketFs.Proofs.Registry.Contract
import BucketFs.Proofs.Files.Asking
import BucketFs.Proofs.Transfer.Access
import BucketFs.Proofs.Files.Closed
import BucketFs.Proofs.Registry.Usage
import BucketFs.Proofs.Store.WellKeyed
import BucketFs.Proofs.Files.Written
import BucketFs.Proofs.Files.Keys
import BucketFs.Proofs.Store.History
import BucketFs.Proofs.Store.Isolation
import BucketFs.Proofs.Store.Failures
import BucketFs.Proofs.Store.Placement
import BucketFs.Proofs.Directory.Reading
import BucketFs.Proofs.Directory.Consumer
import BucketFs.Proofs.Directory.Retries
import BucketFs.Proofs.Files.Delete
import BucketFs.Proofs.Files.Copy
import BucketFs.Proofs.Text.Percent
import BucketFs.Proofs.Text.Triples
import BucketFs.Proofs.Text.Cut
import BucketFs.Proofs.Location.Uri
import BucketFs.Proofs.Location.Display
import BucketFs.Proofs.Registry.Paths
import BucketFs.Proofs.Text.Number
import BucketFs.Proofs.Remote.Requests
import BucketFs.Proofs.Remote.Exchange
import BucketFs.Proofs.Remote.Sources
import BucketFs.Proofs.Remote.CopyInParts
import BucketFs.Proofs.Remote.Listings
import BucketFs.Proofs.Remote.Reads
import BucketFs.Proofs.Transfer.Partition
import BucketFs.Proofs.Transfer.Record
import BucketFs.Proofs.Directory.Probing
import BucketFs.Proofs.Files.Absence
import BucketFs.Proofs.Listing.Checked
import BucketFs.Proofs.Directory.Checked
import BucketFs.Proofs.Location.Normalization
import BucketFs.Proofs.Location.Ways
import BucketFs.Proofs.Location.Parts
import BucketFs.Proofs.Location.Texts
