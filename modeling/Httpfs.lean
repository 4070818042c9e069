import Httpfs.S3.Upload.Failure
import Httpfs.S3.Upload.Published
import Httpfs.S3.Upload.Sizing
import Httpfs.S3.Upload.Waiting
import Httpfs.S3.Upload.Progress
import Httpfs.S3.Provider
import Httpfs.S3.Glob.Match
import Httpfs.S3.Glob.Result
import Httpfs.S3.UrlParts
import Httpfs.S3.Glob.Opening
import Httpfs.S3.Glob.EmittedUrl
import Httpfs.S3.Xml.Reader
import Httpfs.Text.Utf8
import Httpfs.S3.Xml.Grammar
import Httpfs.S3.Xml.Lexical
import Httpfs.S3.Xml.Tags
import Httpfs.S3.Xml.Markup
import Httpfs.S3.Xml.Soundness
import Httpfs.S3.Xml.Completeness
import Httpfs.S3.Xml.Declaration
import Httpfs.S3.Xml.Document
import Httpfs.S3.Xml.Renaming
import Httpfs.S3.Xml.Writer
import Httpfs.S3.Xml.Listing
import Httpfs.Http.Params
import Httpfs.S3.Request.Data
import Httpfs.S3.Request.Retry
import Httpfs.S3.Auth
import Httpfs.S3.Delete.BatchKey
import Httpfs.S3.Delete.RemoveFiles
import Httpfs.S3.Delete.Sent
import Httpfs.S3.Glob.Flat
import Httpfs.S3.Delete.RemoveDirectory
import Httpfs.S3.Delete.Relative
import Httpfs.S3.Session.Program
import Httpfs.S3.Session.Publications
import Httpfs.S3.Session.Concurrent
import Httpfs.S3.Handle.Claims
import Httpfs.S3.Handle.Finalized
import Httpfs.S3.Handle.AbortUpload
import Httpfs.S3.PartSchedule
import Httpfs.S3.UrlFields
import Httpfs.Http.RangeRequest.Probe
import Httpfs.Http.RangeRequest.Verdict
import Httpfs.Http.FullDownload.Buffer
import Httpfs.Http.FullDownload.Program
import Httpfs.Http.FullDownload.SingleFlight
import Httpfs.Http.FullDownload.Published
import Httpfs.Http.ClientPool.Exclusive
import Httpfs.Http.ClientPool.Steps
import Httpfs.Http.ClientPool.Reuse
import Httpfs.S3.Isolation
import Httpfs.S3.Refresh.Material
import Httpfs.S3.Refresh.Phases
import Httpfs.S3.Refresh.Once
import Httpfs.Http.CurlClient
import Httpfs.S3.RequestTarget
import Httpfs.Core.Action
import Httpfs.Http.File.Config
import Httpfs.Http.File.Transfer
import Httpfs.Http.File.Program
import Httpfs.Http.File.Requests
import Httpfs.Http.File.Length
import Httpfs.Http.File.Received
import Httpfs.Http.File.ReadExact
import Httpfs.Http.HuggingFace.Url
import Httpfs.Http.HuggingFace.ListResult
import Httpfs.Http.HuggingFace.Listing
import Httpfs.Http.HuggingFace.Glob
import Httpfs.Http.HuggingFace.Repository
import Httpfs.Http.HuggingFace.Served
import Httpfs.Http.HuggingFace.Exact
import Httpfs.S3.Glob.Meaning
import Httpfs.S3.Glob.Pruning
import Httpfs.Http.HuggingFace.Attempts
import Httpfs.Http.HuggingFace.LinkHeader
import Httpfs.Http.HuggingFace.Scanning
import Httpfs.Http.HuggingFace.TreeText
import Httpfs.Http.HuggingFace.Truncation
import Httpfs.Http.HuggingFace.TreeReading
import Httpfs.Http.CurlHeaders
import Httpfs.Http.CurlGet
import Httpfs.Http.CurlTransfer
import Httpfs.Http.CurlDelivery
import Httpfs.Http.File.Cursor
import Httpfs.S3.RequestQuery
import Httpfs.S3.Request.Headers
import Httpfs.S3.Request.Signing
import Httpfs.S3.Request.Verified
import Httpfs.Http.File.Sharing
import Httpfs.Http.File.Versions
import Httpfs.S3.Request.Enumeration
import Httpfs.S3.Secret.Create
import Httpfs.S3.Secret.Options
import Httpfs.S3.Secret.Replay
import Httpfs.S3.Secret.Refresh
import Httpfs.S3.Xml.Position.Reader
import Httpfs.S3.Xml.Position.Scanning
import Httpfs.S3.Xml.Position.Attributes
import Httpfs.S3.Xml.Position.Elements
import Httpfs.S3.Xml.Position.Markups
import Httpfs.S3.Xml.Position.Safety
import Httpfs.S3.Glob.SentOnce
import Httpfs.S3.Upload.Quiescence
import Httpfs.Http.ConnectionCache.Exclusive
import Httpfs.Http.ConnectionCache.Sweep
import Httpfs.Http.ClientsAgree
import Httpfs.Http.File.Steady
