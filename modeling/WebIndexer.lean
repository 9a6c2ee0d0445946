import WebIndexer.Circuit.CoolDown
import WebIndexer.Circuit.Probing
import WebIndexer.Circuit.Recovery
import WebIndexer.Kafka.Delivery
import WebIndexer.Crawl.Retention
import WebIndexer.Crawl.Limits
import WebIndexer.Crawl.Inflight
import WebIndexer.Crawl.Vetting
import WebIndexer.Crawl.Outage
import WebIndexer.Store.SearchIndex
import WebIndexer.Store.Backends
import WebIndexer.Crawl.Refresh
import WebIndexer.Fetcher.RobotsCheck
import WebIndexer.Crawl.Flow
import WebIndexer.Crawl.Counting
import WebIndexer.Crawl.Blacklist
import WebIndexer.Crawl.Integrity
import WebIndexer.Crawl.RobotsFirst
import WebIndexer.Crawl.DiskPause
import WebIndexer.Crawl.Stalling
import WebIndexer.RateLimit.Bounds
import WebIndexer.Redis.Outage
import WebIndexer.Redis.SlidingWindow
import WebIndexer.Redis.LostUpdates
import WebIndexer.Redis.SingleProbe
import WebIndexer.Redis.SelfClosing
import WebIndexer.Crawl.Spelling
import WebIndexer.Crawl.DomainCap
import WebIndexer.Crawl.AutoBlacklist
import WebIndexer.Crawl.LinkHandover
import WebIndexer.Circuit.Tripping
import WebIndexer.Circuit.Counters
import WebIndexer.Circuit.Observation
import WebIndexer.Kafka.Consumer
import WebIndexer.Store.Cleanup
import WebIndexer.Server.Supervision
import WebIndexer.Server.Tree
import WebIndexer.Server.Search
import WebIndexer.Server.ResultPage
import WebIndexer.Fetcher.HostNames
import WebIndexer.Fetcher.RobotsGroups
import WebIndexer.Fetcher.Redirection
import WebIndexer.Fetcher.Served
import WebIndexer.Fetcher.Settling
import WebIndexer.Crawl.FetchOutcome
import WebIndexer.Crawl.Recrawl
import WebIndexer.Crawl.DomainCounts
import WebIndexer.Crawl.Cursor
import WebIndexer.Kafka.Duplicates
import WebIndexer.Kafka.Recency
import WebIndexer.Kafka.Partitioning
import WebIndexer.Fetcher.RobotsCache
import WebIndexer.Fetcher.LinkLoop
import WebIndexer.RateLimit.RetryAfter
import WebIndexer.Crawl.DiskSpace
import WebIndexer.Elastic.Documents
import WebIndexer.Store.Rebuild
import WebIndexer.Store.DomainGraph
import WebIndexer.Kafka.PartitionNumbers
import WebIndexer.Server.Sanitizing
import WebIndexer.Circuit.Retrying
import WebIndexer.Server.Metrics
import WebIndexer.Store.Migrations
import WebIndexer.Server.WordPlaces
import WebIndexer.Crawl.Durability
import WebIndexer.Kafka.Messages
import WebIndexer.Fetcher.PageFields
import WebIndexer.Server.Shutdown
import WebIndexer.Crawl.Origins
import WebIndexer.Crawl.Draining
import WebIndexer.Store.PgRows
import WebIndexer.Store.PgSerial
import WebIndexer.Fetcher.Dns
