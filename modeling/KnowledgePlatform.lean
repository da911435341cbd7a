import KnowledgePlatform.Outbox.Safety
import KnowledgePlatform.Audit.Binding
import KnowledgePlatform.Audit.Split
import KnowledgePlatform.Audit.Assessment
import KnowledgePlatform.Graph.Refinement
import KnowledgePlatform.Documents.Evaluators
import KnowledgePlatform.Search.Applicability
import KnowledgePlatform.Search.RemoteCache
import KnowledgePlatform.Body.Summary
import KnowledgePlatform.Work.Advertised
import KnowledgePlatform.Registration.Catalog
import KnowledgePlatform.Search.Cursor
import KnowledgePlatform.Documents.Concurrent
import KnowledgePlatform.Search.Lease
import KnowledgePlatform.Projection.Lifecycle
import KnowledgePlatform.Projection.Rebuild
import KnowledgePlatform.Documents.Manifest
import KnowledgePlatform.Documents.Alignment
import KnowledgePlatform.Search.Laws
import KnowledgePlatform.Outbox.Retry
import KnowledgePlatform.Projection.Authority
import KnowledgePlatform.Projection.Evidence
import KnowledgePlatform.Search.Routing
import KnowledgePlatform.Search.Spreadsheet
